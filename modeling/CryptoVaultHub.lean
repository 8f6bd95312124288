import CryptoVaultHub.Contracts.ForwarderSafety
import CryptoVaultHub.Withdrawal.CoSignHash
import CryptoVaultHub.Withdrawal.Polling
import CryptoVaultHub.Withdrawal.SequenceIds
import CryptoVaultHub.KeyVault.WalletSigners
import CryptoVaultHub.Indexer.CreditSafety
import CryptoVaultHub.CoreWallet.ContractConsistency
import CryptoVaultHub.CoreWallet.ForwarderParents
import CryptoVaultHub.Sweep.Stranding
import CryptoVaultHub.Sweep.Attribution
import CryptoVaultHub.Sweep.Settlement
import CryptoVaultHub.KeyVault.DerivationPaths
import CryptoVaultHub.Sweep.Exclusion
import CryptoVaultHub.Withdrawal.CoSignDecision
import CryptoVaultHub.Auth.TwoFactor
import CryptoVaultHub.Sweep.StatusOrder
import CryptoVaultHub.Sweep.DeploymentFlags
import CryptoVaultHub.CoreWallet.WalletPrediction
import CryptoVaultHub.Auth.CodeUses
import CryptoVaultHub.ClientApi.KeyConfinement
import CryptoVaultHub.ClientApi.CustodyMode
import CryptoVaultHub.Notification.Carriage
import CryptoVaultHub.Notification.Isolation
import CryptoVaultHub.Notification.EntryDeliveries
import CryptoVaultHub.KeyVault.ContextBinding
import CryptoVaultHub.KeyVault.RotationRerun
import CryptoVaultHub.CoreWallet.GroupAddresses
import CryptoVaultHub.RpcGateway.Quotas
import CryptoVaultHub.RpcGateway.CircuitBreaker
import CryptoVaultHub.CoreWallet.Idempotency
import CryptoVaultHub.Withdrawal.GasTank
import CryptoVaultHub.Withdrawal.FailedExecutions
import CryptoVaultHub.Indexer.ReorgDetector
import CryptoVaultHub.Indexer.MilestoneEvents
import CryptoVaultHub.Sweep.UsdTotals
import CryptoVaultHub.Sweep.DeployProgress
import CryptoVaultHub.Indexer.EventApplications
import CryptoVaultHub.KeyVault.Reconstruction
import CryptoVaultHub.Contracts.BatcherSafety
import CryptoVaultHub.Contracts.TokenTransfer
import CryptoVaultHub.CoreWallet.FlushOrchestrator
import CryptoVaultHub.CoreWallet.DeployNonces
import CryptoVaultHub.Indexer.Reconciliation
import CryptoVaultHub.KeyVault.ProjectKeys
import CryptoVaultHub.Auth.LoginThrottleSafety
import CryptoVaultHub.Auth.RefreshTokens
import CryptoVaultHub.Auth.Impersonation
import CryptoVaultHub.RpcGateway.RateLimiter
import CryptoVaultHub.ClientApi.WithdrawalApproval
import CryptoVaultHub.CoreWallet.AddressCooldown
import CryptoVaultHub.CoreWallet.OfacDocuments
import CryptoVaultHub.Withdrawal.CoSignVerification
import CryptoVaultHub.ClientApi.ProjectScope
import CryptoVaultHub.Auth.AddressLists
import CryptoVaultHub.Indexer.GapRanges
import CryptoVaultHub.Export.CsvGenerator
import CryptoVaultHub.Export.ExportWorker
import CryptoVaultHub.RpcGateway.HalfOpenProbe
import CryptoVaultHub.RpcGateway.RefusedRequests
import CryptoVaultHub.Auth.TotpAttempts
import CryptoVaultHub.RpcGateway.Failover
