import LeadAutomation.Proofs.Action.Scores
import LeadAutomation.Proofs.LastWrites
import LeadAutomation.Scripted

/-!
# Scores in the store

A lead may be saved with any score. Automation writes scores only through actions, and the scores of
these are brought between 0 and 100 before they get into a patch. So whatever else is saved,
dispatched and executed, at any moment the score of a stored lead is the one that it was last saved
with, or it is from 0 to 100: `Operation.scores_kept`.

Neither a fault of the store nor one outside can change that. `UnreliableHost` allows for more of
them than a frail host does: its store may also overlook what is there.
-/

namespace LeadAutomation

open Program (traceAll stateAfter Traced)

/-! ### Unreliable hosts -/

/-- Surroundings with a store of their own that may refuse any call, and whose looks into the store
may find anything. -/
structure UnreliableHost (σ : Type) where
  answer : (call : Call) → σ → call.Reply × σ
  store : σ → Store
  /-- What the clock of the store shows. -/
  time : σ → Timestamp
  answer_store (call : StoreCall) (s : σ) :
    ((answer (.store call) s).1 = ((store s).answer (time s) call).1 ∧
      store (answer (.store call) s).2 = ((store s).answer (time s) call).2) ∨
    (((∃ error, (answer (.store call) s).1 = .error error) ∨ call.IsRead) ∧
      store (answer (.store call) s).2 = store s)
  store_effect (call : EffectCall) (s : σ) : store (answer (.effect call) s).2 = store s
  store_stamp (s : σ) : store (answer .stamp s).2 = store s

theorem StoreCall.isRead_of_nothing? {call : StoreCall} {result : call.Result}
    (h : call.nothing? = some result) :
    call.IsRead := by
  cases call with
  | getRule id => trivial
  | getWorkflow id => trivial
  | getLead id => trivial
  | getExecution id => trivial
  | _ => cases h

/-- Scripted surroundings, with whatever mishaps the script has for the store. -/
def UnreliableHost.scripted (clock : Nat → Fresh) : UnreliableHost Surroundings where
  answer := Surroundings.answer clock
  store := Surroundings.store
  time s := (clock s.readings).now
  answer_store call s := by
    simp only [Surroundings.answer, Surroundings.answerStore]
    split
    · exact .inr ⟨.inl ⟨_, rfl⟩, rfl⟩
    · next hnothing => exact .inr ⟨.inr (StoreCall.isRead_of_nothing? hnothing), rfl⟩
    · exact .inl ⟨rfl, rfl⟩
  store_effect call s := by cases call <;> rfl
  store_stamp _ := rfl

/-! ### What is stored of a score -/

/-- The score that a lead is saved with, if it is. -/
def Exchange.savedScore? (id : Uuid) : Exchange → Option Int32
  | ⟨.store (.saveLead lead), .ok ()⟩ => if lead.id = id then some lead.score else none
  | ⟨.store _, _⟩ | ⟨.effect _, _⟩ | ⟨.stamp, _⟩ => none

/-- The score that a lead was last saved with: in some exchanges, or else before them. -/
def Store.lastSavedScore? (store : Store) (id : Uuid) (exchanges : List Exchange) : Option Int32 :=
  (exchanges.reverse.findSome? (·.savedScore? id)).or
    ((find? Lead.id id store.leads).map Lead.score)

/-- Whether a call makes a patch only if the score that it sets is from 0 to 100. -/
def Call.ScoresSoundly : Call → Prop
  | .store (.applyPatch _ patch) => patch.HasSoundScore
  | .store _ | .effect _ | .stamp => True

theorem LeadPatch.score_applyTo (patch : LeadPatch) (now : Timestamp) (lead : Lead) :
    (patch.applyTo now lead).score = patch.score.getD lead.score :=
  congrArg Lead.score (patch.untimed_applyTo now lead)

namespace Store

variable {store : Store} {now : Timestamp} {call : StoreCall} {id : Uuid} {lead : Lead}

/-- What a call can do to a score: save it, set it to one from 0 to 100, or leave it. -/
theorem score_of_answer (hcall : (Call.store call).ScoresSoundly)
    (hlead : find? Lead.id id (store.answer now call).2.leads = some lead) :
    (Exchange.mk (.store call) (store.answer now call).1).savedScore? id = some lead.score ∨
      (0 ≤ lead.score.toInt ∧ lead.score.toInt ≤ 100) ∨
      (Exchange.mk (.store call) (store.answer now call).1).savedScore? id = none ∧
        ∃ before, find? Lead.id id store.leads = some before ∧ before.score = lead.score := by
  cases call with
  | saveLead saved =>
    simp only [answer, find?_upsert] at hlead
    by_cases hid : saved.id = id
    · rw [if_pos hid] at hlead
      obtain rfl := Option.some.inj hlead
      exact .inl (if_pos hid)
    · rw [if_neg hid] at hlead
      exact .inr (.inr ⟨if_neg hid, lead, hlead, rfl⟩)
  | applyPatch other patch =>
    have hid : ∀ lead, (patch.applyTo now lead).id = lead.id := patch.id_applyTo now
    cases hstored : find? Lead.id other store.leads with
    | none =>
      simp only [answer, hstored] at hlead ⊢
      exact .inr (.inr ⟨rfl, lead, hlead, rfl⟩)
    | some stored =>
      simp only [answer, hstored] at hlead ⊢
      by_cases heq : other = id
      · subst heq
        rw [find?_modify hid, hstored] at hlead
        obtain rfl := Option.some.inj hlead
        rw [patch.score_applyTo]
        cases hscore : patch.score with
        | none => exact .inr (.inr ⟨rfl, stored, hstored, rfl⟩)
        | some score => exact .inr (.inl (hcall score hscore))
      · rw [find?_modify_of_ne hid heq] at hlead
        exact .inr (.inr ⟨rfl, lead, hlead, rfl⟩)
  | updateExecution execution =>
    refine .inr (.inr ⟨rfl, lead, ?_, rfl⟩)
    simp only [answer] at hlead
    split at hlead <;> exact hlead
  | _ => exact .inr (.inr ⟨rfl, lead, hlead, rfl⟩)

end Store

namespace UnreliableHost

variable {σ : Type} (host : UnreliableHost σ) {call : Call} {s : σ} {id : Uuid} {lead : Lead}

theorem score_of_answer (hcall : call.ScoresSoundly)
    (hlead : Store.find? Lead.id id (host.store (host.answer call s).2).leads = some lead) :
    (Exchange.mk call (host.answer call s).1).savedScore? id = some lead.score ∨
      (0 ≤ lead.score.toInt ∧ lead.score.toInt ≤ 100) ∨
      (Exchange.mk call (host.answer call s).1).savedScore? id = none ∧
        ∃ before, Store.find? Lead.id id (host.store s).leads = some before ∧
        before.score = lead.score := by
  obtain call | call | _ := call
  · obtain ⟨hreply, hstore⟩ | ⟨hidle, hstore⟩ := host.answer_store call s
    · rw [hstore] at hlead
      rw [hreply]
      exact Store.score_of_answer hcall hlead
    · rw [hstore] at hlead
      refine .inr (.inr ⟨?_, lead, hlead, rfl⟩)
      cases call with
      | saveLead saved =>
        obtain ⟨error, herror⟩ | hread := hidle
        · rw [herror]
          rfl
        · exact hread.elim
      | _ => rfl
  · rw [host.store_effect] at hlead
    exact .inr (.inr ⟨rfl, lead, hlead, rfl⟩)
  · rw [host.store_stamp] at hlead
    exact .inr (.inr ⟨rfl, lead, hlead, rfl⟩)

/-- As long as patches set scores from 0 to 100 only, a stored score is one of these or was
saved. -/
theorem score_of_traced {moments : List (Exchange × σ)}
    (h : Traced host.answer Call.ScoresSoundly s moments)
    (hlead : Store.find? Lead.id id (host.store (stateAfter s moments)).leads = some lead) :
    (host.store s).lastSavedScore? id (moments.map Prod.fst) = some lead.score ∨
      0 ≤ lead.score.toInt ∧ lead.score.toInt ≤ 100 := by
  induction moments using List.reverseRecOn generalizing lead with
  | nil => exact .inl (congrArg (Option.map Lead.score) hlead)
  | append_singleton earlier last ih =>
    obtain ⟨hearlier, ⟨call, hcall, rfl⟩, -⟩ := Traced.append_iff.1 h
    rw [Program.stateAfter_concat] at hlead
    rw [Store.lastSavedScore?, List.map_append, List.map_singleton, List.reverse_concat,
      List.findSome?_cons]
    obtain hsaved | hsound | ⟨hnone, before, hbefore, hscore⟩ := host.score_of_answer hcall hlead
    · left
      rw [Program.moment, hsaved]
      rfl
    · exact .inr hsound
    · rw [Program.moment, hnone, ← hscore]
      exact ih hearlier hbefore

end UnreliableHost

/-! ### What can be done to leads -/

/-- What can be done that changes leads: to save one, or to have automation at work, with some
options. -/
inductive Operation where
  | save (lead : Lead)
  | automate (options : Options) (command : Command)

namespace Operation

def program : Operation → Program Unit
  | .save lead => .store (.saveLead lead)
  | .automate options command => command.program options

theorem program_callsOnly (operation : Operation) :
    operation.program.CallsOnly Call.ScoresSoundly := by
  cases operation with
  | save lead => exact .store trivial
  | automate options command =>
    have hcalls : (command.program options).CallsAfter Command.MayCall [] :=
      command.program_callsAfter
    refine hcalls.callsOnly fun had call hmay => ?_
    obtain call | call | _ := call
    · cases call with
      | applyPatch id patch =>
        obtain ⟨-, participant, -, done, -, rfl⟩ := hmay
        exact Action.hasSoundScore_patchOf done
      | _ => trivial
    · trivial
    · trivial

/-- Whatever is saved, dispatched and executed, one after another, and whatever the store and the
systems outside do meanwhile: at every moment the score of a stored lead is the one that it was last
saved with, or it is from 0 to 100. -/
theorem scores_kept {σ : Type} (host : UnreliableHost σ) (operations : List Operation) (s : σ)
    {moments : List (Exchange × σ)}
    (h : moments <+: traceAll host.answer (operations.map program) s) (id : Uuid) (lead : Lead)
    (hlead : Store.find? Lead.id id (host.store (stateAfter s moments)).leads = some lead) :
    (host.store s).lastSavedScore? id (moments.map Prod.fst) = some lead.score ∨
      0 ≤ lead.score.toInt ∧ lead.score.toInt ≤ 100 := by
  have hprograms : ∀ p ∈ operations.map program, p.CallsOnly Call.ScoresSoundly := by
    intro p hp
    obtain ⟨operation, -, rfl⟩ := List.mem_map.1 hp
    exact operation.program_callsOnly
  obtain ⟨later, htrace⟩ := h
  have htraced : Traced host.answer Call.ScoresSoundly s _ := .traceAll hprograms s
  rw [← htrace] at htraced
  exact host.score_of_traced (Traced.append_iff.1 htraced).1 hlead

/-- A rule that asks for a score out of all proportion, and a store that cannot make the first patch
on a lead. -/
def outOfProportion : Surroundings where
  store.rules := [{ Rule.blank Program.stillFresh "Best of all" .scoring 10 with
    actions := [.of .scoring "score" (.text "1e300")] }]
  script.mishaps := [("apply_patch", .failed (.repository "connection lost"))]

/-- A lead is saved with a score above the range, and the rule takes part in two events. -/
def saveAndScore : List Operation :=
  let lead := { Lead.blank Program.stillFresh with score := 250 }
  let created := Event.leadCreated .epoch lead.id
  [.save lead, .automate {} (.dispatch created), .automate {} (.dispatch created)]

theorem scores_kept_saveAndScore :
    let host := UnreliableHost.scripted fun _ => Program.stillFresh
    let moments := traceAll host.answer (saveAndScore.map program) outOfProportion
    ∃ lead, Store.find? Lead.id ⟨0⟩ (host.store (stateAfter outOfProportion moments)).leads =
      some lead ∧ lead.score = 100 ∧
      ((host.store outOfProportion).lastSavedScore? ⟨0⟩ (moments.map Prod.fst) = some lead.score ∨
        0 ≤ lead.score.toInt ∧ lead.score.toInt ≤ 100) := by
  intro host moments
  have hscore :
      (Store.find? Lead.id ⟨0⟩ (host.store (stateAfter outOfProportion moments)).leads).map
          Lead.score = some 100 := by
    decide +kernel
  obtain ⟨lead, hlead, hscore⟩ := Option.map_eq_some_iff.1 hscore
  exact ⟨lead, hlead, hscore,
    scores_kept host saveAndScore outOfProportion (List.prefix_refl _) ⟨0⟩ lead hlead⟩

/-- Until the patch can be made, the lead keeps the score that it was saved with. -/
example :
    let host := UnreliableHost.scripted fun _ => Program.stillFresh
    let moments := traceAll host.answer (saveAndScore.map program) outOfProportion
    (moments.map fun moment => moment.2.store.leads.map Lead.score).eraseReps = [[250], [100]] := by
  decide +kernel

end Operation

end LeadAutomation
