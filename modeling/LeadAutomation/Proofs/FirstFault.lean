import LeadAutomation.Proofs.Dispatch
import LeadAutomation.Proofs.FrailHost

/-!
# The first fault

A dispatch does nothing about a call to the store that fails: it ends there, with the failure for
its own. So up to its first fault it is the dispatch that there would have been without any, call by
call, and what had been done by then stands: `dispatch_until_fault`.

`Program.GivesUp` says that a program ends in this way wherever a call to the store can fail, and it
is all that the comparison with a store without faults needs. Which participants have had their
turns by then is told by `Event.BreaksOff`.
-/

namespace LeadAutomation

open Program (moment)

/-- The error with which a call to the store failed. -/
def Exchange.fault? : Exchange → Option AutomationError
  | ⟨.store _, .error error⟩ => some error
  | ⟨.store _, .ok _⟩ | ⟨.effect _, _⟩ | ⟨.stamp, _⟩ => none

/-- A host whose store refuses some calls: the one with a number for which `faults` has an error is
answered with that error and does nothing. -/
def Host.failing {σ : Type} (host : Host σ) (faults : Nat → Option AutomationError) :
    FrailHost (σ × Nat) where
  answer
    | .store call, (s, n) =>
      match faults n with
      | some error => (.error error, (s, n + 1))
      | none => ((host.answer (.store call) s).1, ((host.answer (.store call) s).2, n + 1))
    | .effect call, (s, n) =>
      ((host.answer (.effect call) s).1, ((host.answer (.effect call) s).2, n))
    | .stamp, (s, n) => ((host.answer .stamp s).1, ((host.answer .stamp s).2, n))
  store s := host.store s.1
  time s := host.time s.1
  answer_store call s := by
    obtain ⟨s, n⟩ := s
    dsimp only
    cases faults n with
    | some error => exact .inr ⟨⟨error, rfl⟩, rfl⟩
    | none => exact .inl ⟨host.answer_store call s, host.store_store call s⟩
  store_effect call s := host.store_effect call s.1
  store_stamp s := host.store_stamp s.1

/-- A call that does not fail goes as it would without faults. -/
theorem Host.exists_failing_answer {σ : Type} {host : Host σ}
    {faults : Nat → Option AutomationError} {call : Call} {s : σ} {n : Nat}
    (hspared : (⟨call, ((host.failing faults).answer call (s, n)).1⟩ : Exchange).fault? = none) :
    ∃ m, (host.failing faults).answer call (s, n) =
      ((host.answer call s).1, ((host.answer call s).2, m)) := by
  cases call with
  | store call =>
    refine ⟨n + 1, ?_⟩
    change (match faults n with | some _ => _ | none => _) = _
    cases hfaults : faults n with
    | some error =>
      have hreply : ((host.failing faults).answer (.store call) (s, n)).1 = .error error := by
        change (match faults n with | some _ => _ | none => _ : _ × _).1 = _
        rw [hfaults]
      rw [hreply] at hspared
      cases hspared
    | none => rfl
  | effect call => exact ⟨n, rfl⟩
  | stamp => exact ⟨n, rfl⟩

theorem FrailHost.store_of_fault? {σ : Type} {host : FrailHost σ} {call : Call} {s : σ}
    {error : AutomationError} (hfault : (moment host.answer call s).1.fault? = some error) :
    host.store (moment host.answer call s).2 = host.store s := by
  cases call with
  | store call =>
    cases hreply : (host.answer (.store call) s).1 with
    | error fault => exact host.store_of_error hreply
    | ok result =>
      change (⟨.store call, (host.answer (.store call) s).1⟩ : Exchange).fault? = _ at hfault
      rw [hreply] at hfault
      cases hfault
  | effect call => exact host.store_effect call s
  | stamp => exact host.store_stamp s

namespace Program

variable {α β σ : Type}

/-- Whether a program ends wherever a call to the store fails, with the failure for its own. -/
def GivesUp : Program α → Prop
  | .done _ => True
  | .ask call next => ∀ reply,
    (∀ error, (⟨call, reply⟩ : Exchange).fault? = some error → next reply = .done (.failed error)) ∧
      ((⟨call, reply⟩ : Exchange).fault? = none → GivesUp (next reply))

namespace GivesUp

theorem pure (a : α) : GivesUp (Pure.pure a : Program α) := trivial

theorem bind {p : Program α} {f : α → Program β} (hp : p.GivesUp) (hf : ∀ a, (f a).GivesUp) :
    (p >>= f).GivesUp := by
  induction p with
  | done outcome =>
    cases outcome with
    | returned a => exact hf a
    | failed error => trivial
    | crashed text => trivial
  | ask call next ih =>
    intro reply
    refine ⟨fun error hfault => ?_, fun hspared => ih reply ((hp reply).2 hspared)⟩
    change next reply >>= f = _
    rw [(hp reply).1 error hfault]
    rfl

theorem map {p : Program α} (f : α → β) (hp : p.GivesUp) : (f <$> p).GivesUp :=
  hp.bind fun a => .pure (f a)

theorem orFail (error : AutomationError) (found : Option α) :
    (Program.orFail error found).GivesUp := by
  cases found <;> trivial

theorem store (call : StoreCall) : (Program.store call).GivesUp := by
  rintro (fault | result)
  · refine ⟨fun error hfault => ?_, fun _ => trivial⟩
    cases hfault
    rfl
  · exact ⟨nofun, fun _ => trivial⟩

theorem of_isOffline {p : Program α} (hp : p.CallsOnly Call.IsOffline) : p.GivesUp := by
  induction p with
  | done outcome => trivial
  | ask call next ih =>
    refine fun reply => ⟨fun error hfault => ?_, fun _ => ih reply (hp.2 reply)⟩
    cases call with
    | store call => exact hp.1.elim
    | effect call => cases hfault
    | stamp => cases hfault

theorem stamp : Program.stamp.GivesUp := of_isOffline (.stamp trivial)

variable {host : Host σ} {faults : Nat → Option AutomationError} {p : Program α} {s : σ} {n : Nat}
  {before after : List (Exchange × (σ × Nat))} {fault : Exchange × (σ × Nat)}
  {error : AutomationError}

/-- A program that gives up at faults makes the same calls and gets the same replies as without
faults, up to the first one. -/
theorem trace_failing (hp : p.GivesUp)
    (hsplit : p.trace (host.failing faults).answer (s, n) = before ++ fault :: after)
    (hfault : fault.1.fault? = some error) :
    after = [] ∧ p.run (host.failing faults).answer (s, n) = (.failed error, fault.2) ∧
    ∃ reached later, p.trace host.answer s = before.map (Prod.map id Prod.fst) ++
      moment host.answer fault.1.call reached :: later ∧
      host.store fault.2.1 = host.store reached := by
  induction p generalizing s n before with
  | done outcome => cases before <;> cases hsplit
  | ask call next ih =>
    let failing := (host.failing faults).answer
    have hnext := hp (failing call (s, n)).1
    cases before with
    | nil =>
      -- the fault is at the first call
      obtain ⟨rfl, hafter⟩ := List.cons.inj hsplit
      have hends : next (failing call (s, n)).1 = .done (.failed error) := hnext.1 error hfault
      refine ⟨?_, ?_, s, _, rfl, FrailHost.store_of_fault? hfault⟩
      · rw [← hafter, hends]
        rfl
      · change (next (failing call (s, n)).1).run failing (failing call (s, n)).2 = _
        rw [hends]
        rfl
    | cons first before =>
      obtain ⟨rfl, hrest⟩ := List.cons.inj hsplit
      -- a fault at the first call would leave no later one
      have hspared : (moment failing call (s, n)).1.fault? = none := by
        rw [Option.eq_none_iff_forall_ne_some]
        intro early hearly
        rw [hnext.1 early hearly] at hrest
        cases before <;> cases hrest
      obtain ⟨m, hanswer⟩ := Host.exists_failing_answer hspared
      have hreply : (failing call (s, n)).1 = (host.answer call s).1 := congrArg Prod.fst hanswer
      rw [hanswer] at hrest
      obtain ⟨hafter, hrun, reached, later, htrace, hstore⟩ := ih _ (hreply ▸ hnext.2 hspared) hrest
      refine ⟨hafter, ?_, reached, later, ?_, hstore⟩
      · change (next (failing call (s, n)).1).run failing (failing call (s, n)).2 = _
        rw [show failing call (s, n) = _ from hanswer]
        exact hrun
      · have hmoment : Prod.map id Prod.fst (moment failing call (s, n)) =
            moment host.answer call s :=
          congrArg (Prod.map (Exchange.mk call) Prod.fst) hanswer
        rw [trace, htrace, List.map_cons, hmoment, List.cons_append]

end GivesUp

end Program

open Program (GivesUp)

/-! ### Dispatches give up -/

theorem Workflow.keep_givesUp (leadId : Option Uuid) (ended : Execution) (patch : LeadPatch) :
    (keep leadId ended patch).GivesUp := by
  refine .bind (.store _) fun _ => .bind ?_ fun _ => .pure _
  unfold write
  split
  · split
    · exact .pure _
    · exact .map _ (.store _)
  · exact .pure _

theorem Workflow.launch_givesUp (options : Options) (workflow : Workflow) (lead : Option Lead)
    (event : EventKind) (triggerData : Json) :
    (workflow.launch options lead event triggerData).GivesUp := by
  rw [launch_eq]
  exact .bind .stamp fun fresh => .bind (.store _) fun _ =>
    .bind (.of_isOffline (run_isOffline options workflow _ lead)) fun _ => keep_givesUp _ _ _

namespace Event

theorem storeWrites_givesUp (leadId : Uuid) (patch : LeadPatch) :
    (storeWrites leadId patch).GivesUp := by
  unfold storeWrites
  split
  · exact .bind (.store _) fun found => .orFail _ found
  · exact .store _

theorem applyRule_givesUp (options : Options) (payload : Json) (rule : Rule) (lead : Lead) :
    (applyRule options payload rule lead).GivesUp := by
  unfold applyRule
  dsimp only
  split
  · refine .bind .stamp fun fresh => .bind (.of_isOffline ?_) ?_
    · exact applyActions_callsOnly (fun _ => trivial) (fun _ => trivial) _ _ _ _ _
    rintro ⟨applied, -⟩
    exact .bind (storeWrites_givesUp _ _) fun left => .pure _
  · exact .pure _

theorem applyWorkflow_givesUp (options : Options) (event : Event) (workflow : Workflow)
    (lead : Lead) :
    (applyWorkflow options event workflow lead).GivesUp :=
  .bind (workflow.launch_givesUp options _ _ _) fun _ => .bind (.store _) fun found =>
    .bind (.orFail _ found) fun _ => .pure _

theorem apply_givesUp (options : Options) (event : Event) (lead : Lead)
    (participant : Participant) :
    (event.apply options lead participant).GivesUp := by
  cases participant with
  | rule rule => exact applyRule_givesUp options event.payload rule lead
  | workflow workflow => exact applyWorkflow_givesUp options event workflow lead

theorem applyAll_givesUp (options : Options) (event : Event) (participants : List Participant)
    (lead : Lead) :
    (event.applyAll options participants lead).GivesUp := by
  induction participants generalizing lead with
  | nil => exact .pure _
  | cons participant rest ih =>
    exact .bind (apply_givesUp options event lead participant) fun (_, left) =>
      .bind (ih left) fun _ => .pure _

theorem opening_givesUp (event : Event) : event.opening.GivesUp := by
  refine .bind (.store _) fun found => .bind (.orFail _ found) fun lead =>
      .bind (.map _ (.store _)) fun rules =>
    .bind ?_ fun workflows => .pure _
  unfold workflows
  split
  · exact .map _ (.store _)
  · exact .pure _

theorem dispatch_givesUp (options : Options) (event : Event) :
    (event.dispatch options).GivesUp := by
  rw [dispatch_eq]
  exact .bind event.opening_givesUp fun (lead, participants) =>
    applyAll_givesUp options event participants lead

/-! ### Turns until a failure -/

section BreaksOff

variable {σ : Type} (answer : (call : Call) → σ → call.Reply × σ) (options : Options)
  (event : Event)

/-- `event.BreaksOff answer options participants lead s turns error left` says that of
`participants`, in turn from `lead` on, some act and the next one fails with `error`; `turns` are
the calls that they make, and whoever comes later does not act. -/
inductive BreaksOff : List Participant → Lead → σ → List (Exchange × σ) → AutomationError → σ → Prop
  | inTurn {participant : Participant} {rest : List Participant} {lead : Lead} {s left : σ}
    {error : AutomationError}
      (fails : (event.apply options lead participant).run answer s = (.failed error, left)) :
      BreaksOff (participant :: rest) lead s
        ((event.apply options lead participant).trace answer s) error left
  | later {participant : Participant} {rest : List Participant} {lead next : Lead}
    {summary : Summary} {s s' left : σ}
      {turns : List (Exchange × σ)} {error : AutomationError}
      (acts : (event.apply options lead participant).run answer s = (.returned (summary, next), s'))
      (breaksOff : BreaksOff rest next s' turns error left) :
      BreaksOff (participant :: rest) lead s
        ((event.apply options lead participant).trace answer s ++ turns) error left

variable {answer options event} {error : AutomationError}

/-- Turns that fail as a whole are broken off by the participant that fails. -/
theorem breaksOff_of_run_applyAll {participants : List Participant} {lead : Lead} {s left : σ}
    (hfails : (event.applyAll options participants lead).run answer s = (.failed error, left)) :
    event.BreaksOff answer options participants lead s
      ((event.applyAll options participants lead).trace answer s) error left := by
  induction participants generalizing lead s with
  | nil => cases hfails
  | cons participant rest ih =>
    unfold applyAll at hfails ⊢
    rw [Program.run_bind] at hfails
    rw [Program.trace_bind]
    rcases hrun :
      (event.apply options lead participant).run answer s with ⟨⟨summary, next⟩ | fault | text, s'⟩
    · rw [hrun] at hfails
      dsimp only at hfails ⊢
      rw [Program.trace_bind_pure]
      exact .later hrun (ih (Program.run_of_run_bind_pure_failed hfails))
    · rw [hrun] at hfails
      cases hfails
      dsimp only
      rw [List.append_nil]
      exact .inTurn hrun
    · rw [hrun] at hfails
      cases hfails

end BreaksOff

variable {σ : Type}

/-- A dispatch ends at the first call to the store that fails, with the error of that call. Up to
there it makes the calls of the dispatch without faults, with the same replies, and it leaves the
store as that one has it by then. The call is one of those that open the dispatch, or one in the
turn of some participant; the participants before have had their turns, those after have none. -/
theorem dispatch_until_fault (host : Host σ) (faults : Nat → Option AutomationError)
    (options : Options) (event : Event) (s : σ) {before after : List (Exchange × (σ × Nat))}
    {fault : Exchange × (σ × Nat)} {error : AutomationError}
    (hsplit : (event.dispatch options).trace (host.failing faults).answer (s, 0) =
      before ++ fault :: after)
    (hfault : fault.1.fault? = some error) :
    let answer := (host.failing faults).answer
    after = [] ∧ (event.dispatch options).run answer (s, 0) = (.failed error, fault.2) ∧
    (∃ reached later, (event.dispatch options).trace host.answer s =
        before.map (Prod.map id Prod.fst) ++ moment host.answer fault.1.call reached :: later ∧
      host.store fault.2.1 = host.store reached) ∧
    (event.opening.run answer (s, 0) = (.failed error, fault.2) ∨
      ∃ lead participants begun turns, event.opening.run answer (s, 0) =
        (.returned (lead, participants), begun) ∧
        event.BreaksOff answer options participants lead begun turns error fault.2 ∧
        before ++ [fault] = event.opening.trace answer (s, 0) ++ turns) := by
  intro answer
  obtain ⟨rfl, hrun, hprefix⟩ := (dispatch_givesUp options event).trace_failing hsplit hfault
  refine ⟨rfl, hrun, hprefix, ?_⟩
  rw [dispatch_eq, Program.trace_bind] at hsplit
  rw [dispatch_eq, Program.run_bind] at hrun
  rcases hopening :
    event.opening.run answer (s, 0) with ⟨⟨lead, participants⟩ | early | text, begun⟩
  · rw [hopening] at hsplit hrun
    exact .inr ⟨lead, participants, begun, _, rfl, breaksOff_of_run_applyAll hrun, hsplit.symm⟩
  · rw [hopening] at hrun
    obtain ⟨hearly, rfl⟩ := Prod.mk.inj hrun
    cases hearly
    exact .inl rfl
  · rw [hopening] at hrun
    cases hrun

/-- A lead and a rule that scores it. -/
def scoredLead : Store where
  leads := [.blank Program.stillFresh]
  rules := [{ Rule.blank Program.stillFresh "Score all leads" .scoring 90 with
    actions := [.setScore (.ofNat false 70)] }]

/-- The rule cannot store what it wrote to the lead. -/
theorem dispatch_until_fault_scoredLead :
    let event := Event.leadCreated .epoch (Lead.blank Program.stillFresh).id
    let error := AutomationError.repository "connection lost"
    let faults : Nat → Option AutomationError := fun n => if n = 3 then some error else none
    let answer := (Host.still.failing faults).answer
    ∃ before fault after, (event.dispatch {}).trace answer (scoredLead, 0) =
      before ++ fault :: after ∧
      fault.1.fault? = some error ∧ after = [] ∧
      (event.dispatch {}).run answer (scoredLead, 0) = (.failed error, fault.2) ∧
      (∃ reached later, (event.dispatch {}).trace Host.still.answer scoredLead =
          before.map (Prod.map id Prod.fst) ++
            moment Host.still.answer fault.1.call reached :: later ∧
        fault.2.1 = reached) ∧
      (event.opening.run answer (scoredLead, 0) = (.failed error, fault.2) ∨
        ∃ lead participants begun turns, event.opening.run answer (scoredLead, 0) =
          (.returned (lead, participants), begun) ∧
          event.BreaksOff answer {} participants lead begun turns error fault.2 ∧
          before ++ [fault] = event.opening.trace answer (scoredLead, 0) ++ turns) := by
  intro event error faults answer
  have hfails : ∃ step ∈ (event.dispatch {}).trace answer (scoredLead, 0),
    step.1.fault? = some error := by decide +kernel
  obtain ⟨fault, hmem, hfault⟩ := hfails
  obtain ⟨before, after, hsplit⟩ := List.append_of_mem hmem
  exact ⟨before, fault, after, hsplit, hfault,
    dispatch_until_fault Host.still faults {} event scoredLead hsplit hfault⟩

end Event

end LeadAutomation
