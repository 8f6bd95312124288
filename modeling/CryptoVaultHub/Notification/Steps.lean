import CryptoVaultHub.Notification.Effects

/-!
# The steps of a delivery

Seen from the delivery that a process works on, a statement updates its row, sends it, records the
answer of its endpoint, or adds a job for it. `Process.step_takes` goes through the statements once;
what is kept along a run is shown from the kinds of steps alone.
-/

namespace CryptoVaultHub.Notification

/-! ## Points -/

/-- The delivery that a process works on. A worker that has only its job left to end, and a loop
between two deliveries, work on none. -/
def Process.worksOn : Process → Option DeliveryId
  | .deliver call .findDelivery | .deliver call (.findWebhook _) | .deliver call .reject
  | .deliver call (.post _ _) | .deliver call (.recordAttempt _ _ _)
  | .deliver call (.markSent _ _ _) | .deliver call (.recordError _ _)
  | .deliver call (.markFailed _ _) | .deliver call (.markQueued _ _)
  | .deliver call (.addRetry _) => some call.deliveryId
  | .deliver _ .finish | .deliver _ .fail => none
  | .createDeliveries (.findMatching _) | .createDeliveries (.create _ _ _) => none
  | .createDeliveries (.add _ deliveryId _ _) => some deliveryId
  | .resendDelivery (.create _) => none
  | .resendDelivery (.add deliveryId _) => some deliveryId
  | .resend (.findWebhook deadLetter) | .resend (.reset deadLetter _)
  | .resend (.add deadLetter) => some deadLetter.id
  | .testWebhook (.create _) => none
  | .testWebhook (.post deliveryId) | .testWebhook (.recordAttempt deliveryId _)
  | .testWebhook (.update deliveryId _) | .testWebhook (.recordError deliveryId)
  | .testWebhook (.markFailed deliveryId) => some deliveryId

/-- An answer with success is being recorded. -/
def Process.recordsSuccess : Process → Bool
  | .deliver _ (.recordAttempt _ _ httpStatus) => isSuccess httpStatus
  | .deliver _ (.markSent _ _ _) => true
  | .testWebhook (.recordAttempt _ httpStatus) | .testWebhook (.update _ httpStatus) =>
    isSuccess httpStatus
  | _ => false

/-- A request is being sent. -/
def Process.sends : Process → Bool
  | .deliver _ (.post _ _) | .testWebhook (.post _) => true
  | _ => false

/-! ## Kinds of steps -/

/-- A process that neither works on another delivery than before nor records a success. -/
def Process.Within (id : Option DeliveryId) (process : Process) : Prop :=
  (process.worksOn = none ∨ process.worksOn = id) ∧ process.recordsSuccess = false

/-- The statements of a process, by what they do to the delivery that it works on. -/
inductive Process.Takes (store : Store) (answer : Answer) (process : Process) : Step → Prop where
  | works {id : DeliveryId} {step : Step} (on : process.worksOn = some id)
      (unsure : process.recordsSuccess = false)
      (effect : step.effect = .skip ∨ ∃ change, step.effect = .update id change)
      (next : ∀ later ∈ step.next, later.Within (some id))
      (thrown : ∀ later ∈ step.thrown, later.Within (some id)) : Takes store answer process step
  | sends {id : DeliveryId} {isRetry : Bool} {later caught : Process}
      (on : process.worksOn = some id) (sending : process.sends = true)
      (unsure : process.recordsSuccess = false)
      (next : later.worksOn = some id ∧ later.recordsSuccess = answer.any isSuccess)
      (thrown : caught.worksOn = some id ∧ caught.recordsSuccess = false) :
      Takes store answer process ⟨.post ⟨id, isRetry, answer⟩, some later, some caught⟩
  | records {id : DeliveryId} {later : Process} {thrown : Option Process}
      (on : process.worksOn = some id) (sure : process.recordsSuccess = true)
      (next : later.worksOn = some id ∧ later.recordsSuccess = true) :
      Takes store answer process ⟨.skip, some later, thrown⟩
  | settles {id : DeliveryId} {change : Change} {next thrown : Option Process}
      (on : process.worksOn = some id) (sure : process.recordsSuccess = true)
      (sent : change.status = .sent) (next_ : ∀ later ∈ next, later.Within none) :
      Takes store answer process ⟨.update id change, next, thrown⟩
  | inserts {draft : Draft} {later : Process} (on : process.worksOn = none)
      (unsure : process.recordsSuccess = false)
      (next : later.worksOn = some store.nextDelivery ∧ later.recordsSuccess = false) :
      Takes store answer process ⟨.insert draft, some later, none⟩
  | adds {data : JobData} {step : Step} (on : process.worksOn = some data.deliveryId)
      (unsure : process.recordsSuccess = false) (effect : step.effect = .addJob data)
      (next : ∀ later ∈ step.next, later.Within none)
      (thrown : ∀ later ∈ step.thrown, later.Within none) : Takes store answer process step
  | rests {step : Step} (on : process.worksOn = none)
      (unsure : process.recordsSuccess = false)
      (effect : step.effect = .skip ∨
        ∃ id token, step.effect = .completeJob id token ∨ step.effect = .failJob id token)
      (next : ∀ later ∈ step.next, later.Within none) (thrown : step.thrown = none) :
      Takes store answer process step

theorem Process.Within.none {id : Option DeliveryId} {process : Process}
    (idle : process.worksOn = none) (unsure : process.recordsSuccess = false) :
    process.Within id := ⟨.inl idle, unsure⟩

theorem Call.ends_within {call : Call} {id : Option DeliveryId} {point : DeliverPoint}
    (final : point = .finish ∨ point = .fail) : ∀ later ∈ call.ends point, later.Within id := by
  intro later goes
  unfold Call.ends at goes
  split at goes
  · cases goes
  · cases goes
    obtain rfl | rfl := final <;> exact .none rfl rfl

theorem Call.handleFailure_within (call : Call) (delivery : Delivery) (webhook : Webhook)
    (httpStatus : Option Nat) :
    (call.handleFailure delivery webhook httpStatus).Within (some call.deliveryId) := by
  unfold Call.handleFailure
  split <;> exact ⟨.inr rfl, rfl⟩

theorem createNext_within (event : Event) (webhooks : List Webhook) :
    ∀ later ∈ createNext event webhooks, later.Within none := by
  intro later goes
  cases webhooks with
  | nil => cases goes
  | cons webhook rest =>
    cases goes
    exact .none rfl rfl

theorem Call.deliverWebhook_takes (store : Store) (answer : Answer) (call : Call)
    (point : DeliverPoint) :
    (Process.deliver call point).Takes store answer (call.deliverWebhook store answer point) := by
  cases point with
  | findDelivery =>
    apply Process.Takes.works rfl rfl (.inl rfl)
    · intro later goes
      simp only [Call.deliverWebhook] at goes
      split at goes
      · exact Call.ends_within (.inl rfl) later goes
      · cases goes
        exact ⟨.inr rfl, rfl⟩
    · exact Call.ends_within (.inr rfl)
  | findWebhook delivery =>
    apply Process.Takes.works rfl rfl (.inl rfl)
    · intro later goes
      simp only [Call.deliverWebhook] at goes
      split at goes
      · cases goes
        exact ⟨.inr rfl, rfl⟩
      · split at goes <;> cases goes <;> exact ⟨.inr rfl, rfl⟩
    · exact Call.ends_within (.inr rfl)
  | reject =>
    apply Process.Takes.works rfl rfl (.inr ⟨_, rfl⟩)
    · exact Call.ends_within (.inl rfl)
    · exact Call.ends_within (.inr rfl)
  | post delivery webhook =>
    cases answer with
    | none => exact .sends rfl rfl rfl ⟨rfl, rfl⟩ ⟨rfl, rfl⟩
    | some httpStatus => exact .sends rfl rfl rfl ⟨rfl, rfl⟩ ⟨rfl, rfl⟩
  | recordAttempt delivery webhook httpStatus =>
    cases success : isSuccess httpStatus with
    | true =>
      simp only [Call.deliverWebhook, success, if_true]
      exact .records rfl success ⟨rfl, rfl⟩
    | false =>
      have unsure : (Process.deliver call (.recordAttempt delivery webhook
          httpStatus)).recordsSuccess = false := success
      simp only [Call.deliverWebhook, success, Bool.false_eq_true, if_false]
      apply Process.Takes.works rfl unsure (.inl rfl)
      · rintro later ⟨⟩
        exact call.handleFailure_within delivery webhook (some httpStatus)
      · rintro later ⟨⟩
        exact ⟨.inr rfl, rfl⟩
  | markSent delivery webhook httpStatus =>
    exact .settles rfl rfl rfl (Call.ends_within (.inl rfl))
  | recordError delivery webhook =>
    apply Process.Takes.works rfl rfl (.inl rfl)
    · rintro later ⟨⟩
      exact call.handleFailure_within delivery webhook none
    · exact Call.ends_within (.inr rfl)
  | markFailed delivery httpStatus =>
    apply Process.Takes.works rfl rfl (.inr ⟨_, rfl⟩)
    · exact Call.ends_within (.inl rfl)
    · exact Call.ends_within (.inr rfl)
  | markQueued delivery httpStatus =>
    apply Process.Takes.works rfl rfl (.inr ⟨_, rfl⟩)
    · rintro later ⟨⟩
      exact ⟨.inr rfl, rfl⟩
    · exact Call.ends_within (.inr rfl)
  | addRetry delivery =>
    apply Process.Takes.adds rfl rfl rfl
    · exact Call.ends_within (.inl rfl)
    · exact Call.ends_within (.inr rfl)
  | finish =>
    simp only [Call.deliverWebhook]
    split
    · exact .rests rfl rfl (.inl rfl) (by simp) rfl
    · exact .rests rfl rfl (.inr ⟨_, _, .inl rfl⟩) (by simp) rfl
  | fail =>
    simp only [Call.deliverWebhook]
    split
    · exact .rests rfl rfl (.inl rfl) (by simp) rfl
    · exact .rests rfl rfl (.inr ⟨_, _, .inr rfl⟩) (by simp) rfl

theorem Process.step_takes (store : Store) (answer : Answer) (process : Process) :
    process.Takes store answer (process.step store answer) := by
  cases process with
  | deliver call point => exact call.deliverWebhook_takes store answer point
  | createDeliveries point =>
    cases point with
    | findMatching event => exact .rests rfl rfl (.inl rfl) (createNext_within event _) rfl
    | create event webhook rest => exact .inserts rfl rfl ⟨rfl, rfl⟩
    | add event deliveryId webhook rest =>
      exact .adds rfl rfl rfl (createNext_within event rest) (by rintro later ⟨⟩)
  | resendDelivery point =>
    cases point with
    | create original => exact .inserts rfl rfl ⟨rfl, rfl⟩
    | add deliveryId original => exact .adds rfl rfl rfl (by rintro later ⟨⟩) (by rintro later ⟨⟩)
  | resend point =>
    cases point with
    | findWebhook deadLetter =>
      apply Process.Takes.works rfl rfl (.inl rfl)
      · rintro later ⟨⟩
        exact ⟨.inr rfl, rfl⟩
      · rintro later ⟨⟩
    | reset deadLetter maxAttempts =>
      apply Process.Takes.works rfl rfl (.inr ⟨_, rfl⟩)
      · rintro later ⟨⟩
        exact ⟨.inr rfl, rfl⟩
      · rintro later ⟨⟩
    | add deadLetter => exact .adds rfl rfl rfl (by rintro later ⟨⟩) (by rintro later ⟨⟩)
  | testWebhook point =>
    cases point with
    | create webhook => exact .inserts rfl rfl ⟨rfl, rfl⟩
    | post deliveryId =>
      cases answer with
      | none => exact .sends rfl rfl rfl ⟨rfl, rfl⟩ ⟨rfl, rfl⟩
      | some httpStatus => exact .sends rfl rfl rfl ⟨rfl, rfl⟩ ⟨rfl, rfl⟩
    | recordAttempt deliveryId httpStatus =>
      cases success : isSuccess httpStatus with
      | true => exact .records rfl success ⟨rfl, success⟩
      | false =>
        have unsure : (Process.testWebhook (.recordAttempt deliveryId
            httpStatus)).recordsSuccess = false := success
        apply Process.Takes.works rfl unsure (.inl rfl)
        · rintro later ⟨⟩
          exact ⟨.inr rfl, success⟩
        · rintro later ⟨⟩
          exact ⟨.inr rfl, rfl⟩
    | update deliveryId httpStatus =>
      cases success : isSuccess httpStatus with
      | true => exact .settles rfl success (by simp [success]) (by rintro later ⟨⟩)
      | false =>
        have unsure : (Process.testWebhook (.update deliveryId
            httpStatus)).recordsSuccess = false := success
        apply Process.Takes.works rfl unsure (.inr ⟨_, rfl⟩)
        · rintro later ⟨⟩
        · rintro later ⟨⟩
          exact ⟨.inr rfl, rfl⟩
    | recordError deliveryId =>
      apply Process.Takes.works rfl rfl (.inl rfl)
      · rintro later ⟨⟩
        exact ⟨.inr rfl, rfl⟩
      · rintro later ⟨⟩
    | markFailed deliveryId =>
      apply Process.Takes.works rfl rfl (.inr ⟨_, rfl⟩)
      · rintro later ⟨⟩
      · rintro later ⟨⟩

end CryptoVaultHub.Notification
