import LeadAutomation.Proofs.Records
import LeadAutomation.Proofs.Runs
import LeadAutomation.Rehearsal
import LeadAutomation.Workflow.Run

/-!
# Hosts

A host is a place for programs to run in whose store is the store in memory, with no fault in it and
no one else writing to it. Of the clock and the systems outside a host says nothing: they may do
anything at any time, except touch the store.

A program that makes no call to the store leaves it as it is, and each call of a program to the
store does to it what `Store.answer` says.
-/

namespace LeadAutomation

/-- Surroundings with a store of their own. -/
structure Host (σ : Type) where
  answer : (call : Call) → σ → call.Reply × σ
  store : σ → Store
  /-- What the clock of the store shows. -/
  time : σ → Timestamp
  answer_store (call : StoreCall) (s : σ) :
    (answer (.store call) s).1 = ((store s).answer (time s) call).1
  store_store (call : StoreCall) (s : σ) :
    store (answer (.store call) s).2 = ((store s).answer (time s) call).2
  store_effect (call : EffectCall) (s : σ) : store (answer (.effect call) s).2 = store s
  store_stamp (s : σ) : store (answer .stamp s).2 = store s

/-- A store whose surroundings do all they are asked, in no time. -/
def Host.still : Host Store where
  answer
    | .store call, store => store.answer .epoch call
    | .effect call, store => (.returned call.rehearsedReply, store)
    | .stamp, store => (Program.stillFresh, store)
  store := id
  time _ := .epoch
  answer_store _ _ := rfl
  store_store _ _ := rfl
  store_effect _ _ := rfl
  store_stamp _ := rfl

/-- Whether a call leaves the store alone. -/
def Call.IsOffline : Call → Prop
  | .store _ => False
  | .effect _ | .stamp => True

namespace Host

variable {σ α β : Type} (host : Host σ)

/-- No system outside ever breaks down. -/
def IsCalm : Prop := ∀ call s text, (host.answer (.effect call) s).1 ≠ .crashed text

theorem still_isCalm : still.IsCalm := fun _ _ _ => nofun

theorem store_run_of_isOffline {p : Program α} (hoffline : p.CallsOnly Call.IsOffline) (s : σ) :
    host.store (p.run host.answer s).2 = host.store s := by
  apply hoffline.view_run
  intro call hcall s
  cases call with
  | store call => exact hcall.elim
  | effect call => exact host.store_effect call s
  | stamp => exact host.store_stamp s

/-! ### Calls one at a time -/

theorem run_stamp_bind {f : Fresh → Program β} {s : σ} :
    (Program.stamp >>= f).run host.answer s =
      (f (host.answer .stamp s).1).run host.answer (host.answer .stamp s).2 := rfl

theorem run_store_bind {call : StoreCall} {f : call.Result → Program β} {s : σ}
    {result : call.Result} (hresult : ((host.store s).answer (host.time s) call).1 = .ok result) :
    (Program.store call >>= f).run host.answer s =
      (f result).run host.answer (host.answer (.store call) s).2 := by
  apply Program.run_store_bind_ok
  rw [host.answer_store, hresult]

theorem run_store_ok {call : StoreCall} {s : σ} {result : call.Result}
    (hresult : ((host.store s).answer (host.time s) call).1 = .ok result) :
    (Program.store call).run host.answer s =
      (.returned result, (host.answer (.store call) s).2) := by
  change (Program.ofExcept (host.answer (.store call) s).1).run host.answer _ = _
  rw [host.answer_store, hresult]
  rfl

theorem run_store_error {call : StoreCall} {s : σ} {error : AutomationError}
    (hresult : ((host.store s).answer (host.time s) call).1 = .error error) :
    (Program.store call).run host.answer s = (.failed error, (host.answer (.store call) s).2) := by
  change (Program.ofExcept (host.answer (.store call) s).1).run host.answer _ = _
  rw [host.answer_store, hresult]
  rfl

end Host

/-! ### What stays away from the store -/

section CallsOnly

variable {allowed : Call → Prop}

theorem ActionPlan.carryOut_callsOnly
    (hnotify : ∀ notification, allowed (.effect (.notify notification)))
    (henrich : ∀ request, allowed (.effect (.enrich request))) (plan : ActionPlan)
    (action : Action) :
    (plan.carryOut action).CallsOnly allowed := by
  cases plan with
  | write planned => exact .pure _
  | notify notification =>
    refine .bind (.effect_caught (hnotify _)) ?_
    rintro (error | ⟨⟩) <;> exact .pure _
  | enrich request =>
    refine .bind (.effect_caught (henrich _)) ?_
    rintro (error | ⟨⟩) <;> exact .pure _
  | fault reason => exact .pure _

theorem applyActions_callsOnly (hnotify : ∀ notification, allowed (.effect (.notify notification)))
    (henrich : ∀ request, allowed (.effect (.enrich request))) (now : Timestamp)
    (defaults : List String) (payload : Json) (actions : List Action) (lead : Option Lead) :
    (applyActions now defaults payload actions lead).CallsOnly allowed := by
  induction actions generalizing lead with
  | nil => exact .pure _
  | cons action rest ih =>
    refine .bind (ActionPlan.carryOut_callsOnly hnotify henrich _ action) fun outcome =>
      .bind (ih _) ?_
    rintro ⟨later, final⟩
    exact .pure _

theorem Step.perform_callsOnly (heffect : ∀ call, allowed (.effect call)) (now : Timestamp)
    (options : Options) (view : RecordView) (step : Step) :
    (step.perform now options view).CallsOnly allowed := by
  unfold perform
  split
  · exact .pure _
  · refine .bind (ActionPlan.carryOut_callsOnly (fun _ => heffect _) (fun _ => heffect _) _ _)
      fun outcome => ?_
    split <;> exact .pure _
  · split <;> exact .pure _
  · exact .pure _
  · refine .bind ?_ fun _ => .pure _
    unfold performNotification
    split
    · exact .pure _
    · refine .bind (.effect_caught (heffect _)) ?_
      rintro (error | ⟨⟩) <;> exact .pure _
  · refine .bind (.bind (.effect_caught (heffect _)) ?_) fun _ => .pure _
    rintro (error | reply) <;> exact .pure _

end CallsOnly

theorem Workflow.runSteps_isOffline (options : Options) (steps : List Step) (state : RunState) :
    (runSteps options steps state).CallsOnly Call.IsOffline := by
  induction steps generalizing state with
  | nil => exact .pure _
  | cons step rest ih =>
    refine .bind (.stamp trivial) fun fresh =>
        .bind (.attempt (Step.perform_callsOnly (fun _ => trivial) _ _ _ _)) fun outcome =>
      .bind (.ofExcept _) ?_
    rintro ⟨next, ends⟩
    cases ends with
    | true => exact .pure _
    | false => exact ih next

theorem Workflow.run_isOffline (options : Options) (workflow : Workflow) (execution : Execution)
    (lead : Option Lead) :
    (workflow.run options execution lead).CallsOnly Call.IsOffline := by
  unfold run
  split
  · trivial
  · exact .bind (runSteps_isOffline options _ _) fun state => .bind (.stamp trivial) fun fresh =>
      .bind (.ofExcept _) fun ended => .pure _

end LeadAutomation
