import LeadAutomation.Proofs.FrailHost
import LeadAutomation.Proofs.Rule.Predicted
import LeadAutomation.Proofs.Workflow.Predicted

/-!
# Trials leave no trace

A test of a rule and a preview of a workflow read one definition from the store and look at the
clock. They make no other call, so whatever the store refuses and whatever the systems outside would
do, nothing is changed by them and no one is told; and what they answer is settled by the reply to
that one reading and by what they are given, up to times and generated identifiers:
`Trial.leaves_no_trace`.

Two trials of one definition at different places are two rehearsals of the same work at different
times. So the answers agree for the reason for which a trial agrees with the real thing:
`CarriedOut.unique` and `Course.alike`.
-/

namespace LeadAutomation

/-! ### Answers without their times -/

/-- A record without what the clock gave it: its times and its identifier. -/
def Execution.untimed (record : Execution) : Execution :=
  { record with
    id := ⟨0⟩
    startedAt := .epoch
    completedAt := record.completedAt.map fun _ => .epoch
    context := { record.context with timestamp := .epoch }
    log := record.log.map LogEntry.untimed }

def RuleTest.untimed (test : RuleTest) : RuleTest := { test with lead := test.lead.untimed }

def Preview.untimed (preview : Preview) : Preview :=
  { preview with execution := preview.execution.untimed, lead := preview.lead.map Lead.untimed }

theorem Execution.TellsAs.untimed_eq {record other : Execution} (h : record.TellsAs other)
    (hworkflow : record.workflowId = other.workflowId)
    (htriggerData : record.triggerData = other.triggerData)
    (hcompleted : record.completedAt.isSome = other.completedAt.isSome)
    (hcontext :
      { record.context with timestamp := .epoch } = { other.context with timestamp := .epoch }) :
    record.untimed = other.untimed := by
  have hended : record.completedAt.map (fun _ => Timestamp.epoch) =
      other.completedAt.map fun _ => Timestamp.epoch := by
    cases hmine : record.completedAt <;> cases htheirs : other.completedAt <;>
      simp [hmine, htheirs] at hcompleted ⊢
  rw [untimed, untimed, mk.injEq]
  exact ⟨rfl, hworkflow, h.lead, h.status, rfl, hended, h.message, htriggerData,
    hcontext, h.log, h.gate⟩

/-! ### One definition, two trials -/

section Congr

variable {σ τ : Type} {answer : (call : Call) → σ → call.Reply × σ}
  {other : (call : Call) → τ → call.Reply × τ} {s : σ} {t : τ}

theorem Rule.test_congr (options : Options) (ruleId : Uuid) (lead : Lead)
    (hsame : (answer (.store (.getRule ruleId)) s).1 = (other (.store (.getRule ruleId)) t).1) :
    ((Rule.test options ruleId lead).run answer s).1.map RuleTest.untimed =
      ((Rule.test options ruleId lead).run other t).1.map RuleTest.untimed := by
  cases hreply : (answer (.store (.getRule ruleId)) s).1 with
  | error error =>
    rw [Rule.test, Program.run_store_bind_error hreply,
      Program.run_store_bind_error (hsame ▸ hreply)]
  | ok found =>
    cases found with
    | none =>
      rw [Rule.test, Program.run_store_bind_ok hreply, Program.run_store_bind_ok (hsame ▸ hreply)]
      rfl
    | some stored =>
      obtain ⟨now, calls, applied, final, s', hcarried, hobliging, htest⟩ :=
        Rule.exists_run_test_of_reply options lead hreply
      obtain ⟨later, others, done, left, t', hcarried', hobliging', htest'⟩ :=
        Rule.exists_run_test_of_reply options lead (hsame ▸ hreply)
      obtain ⟨rfl, rfl, hleft⟩ := hcarried.unique hcarried' rfl hobliging hobliging'
      have hlead : (final.getD lead).untimed = (left.getD lead).untimed := by
        rw [← Option.getD_map Lead.untimed, ← Option.getD_map Lead.untimed, hleft]
      rw [htest, htest', Outcome.map, Outcome.map, RuleTest.untimed, RuleTest.untimed, hlead]

theorem Workflow.preview_congr (options : Options) (workflowId : Uuid) (lead : Option Lead)
    (triggerData : Json)
    (hsame : (answer (.store (.getWorkflow workflowId)) s).1 =
      (other (.store (.getWorkflow workflowId)) t).1) :
    ((Workflow.preview options workflowId lead triggerData).run answer s).1.map Preview.untimed =
      ((Workflow.preview options workflowId lead triggerData).run other t).1.map
        Preview.untimed := by
  cases hreply : (answer (.store (.getWorkflow workflowId)) s).1 with
  | error error =>
    rw [Workflow.preview, Program.run_store_bind_error hreply,
      Program.run_store_bind_error (hsame ▸ hreply)]
  | ok found =>
    cases found with
    | none =>
      rw [Workflow.preview, Program.run_store_bind_ok hreply,
        Program.run_store_bind_ok (hsame ▸ hreply)]
      rfl
    | some stored =>
      obtain ⟨fresh, real, ended, report, s', hruns, hobliging, hpreview⟩ :=
        Workflow.exists_run_preview_of_reply options triggerData lead hreply
      obtain ⟨fresh', real', ended', report', t', hruns', hobliging', hpreview'⟩ :=
        Workflow.exists_run_preview_of_reply options triggerData lead (hsame ▸ hreply)
      let draft (fresh : Fresh) :=
        Execution.start fresh stored (lead.map (·.id)) none triggerData [("preview", .bool true)]
      have hrunning (fresh : Fresh) : (draft fresh).status = .running := rfl
      obtain ⟨turns, final, ending, hcourse, hcalls, hended⟩ :=
        Workflow.exists_course_of_runs_run (hrunning fresh) hruns
      obtain ⟨others, left, ending', hcourse', hcalls', hended'⟩ :=
        Workflow.exists_course_of_runs_run (hrunning fresh') hruns'
      cases hended
      cases hended'
      obtain ⟨halike, hfinal⟩ :=
        hcourse.alike hcourse' rfl (Turn.isObliging_of_calls hcalls hobliging)
        (Turn.isObliging_of_calls hcalls' hobliging')
      have hdrafts : (draft fresh).TellsAs (draft fresh') := ⟨rfl, rfl, rfl, rfl, rfl⟩
      have hexecution : ((draft fresh).concluded turns ending.now).untimed =
          ((draft fresh').concluded others ending'.now).untimed :=
        (Turn.tellsAs_concluded halike hdrafts _ _).untimed_eq rfl rfl rfl rfl
      have hasked : real.filterMap Exchange.asked? = real'.filterMap Exchange.asked? := by
        rw [hcalls, hcalls', List.filterMap_append, List.filterMap_append, Turn.asked_congr halike]
        rfl
      rw [hpreview, hpreview', Outcome.map, Outcome.map, Preview.untimed, Preview.untimed, hasked]
      dsimp only
      rw [hexecution, hfinal]

end Congr

/-- What can be tried out. -/
inductive Trial where
  | rule (ruleId : Uuid) (lead : Lead)
  | workflow (workflowId : Uuid) (lead : Option Lead) (triggerData : Json)

namespace Trial

inductive Answer where
  | rule (test : RuleTest)
  | workflow (preview : Preview)

def Answer.untimed : Answer → Answer
  | rule test => rule test.untimed
  | workflow preview => workflow preview.untimed

def program (options : Options) : Trial → Program Answer
  | rule ruleId lead => .rule <$> Rule.test options ruleId lead
  | workflow workflowId lead triggerData =>
    .workflow <$> Workflow.preview options workflowId lead triggerData

/-- The call that reads what is tried out. -/
def definition : Trial → StoreCall
  | rule ruleId _ => .getRule ruleId
  | workflow workflowId _ _ => .getWorkflow workflowId

/-- The calls that a trial makes: it reads a definition and looks at the clock. -/
def Calls (trial : Trial) (call : Call) : Prop := call = .store trial.definition ∨ call = .stamp

variable {options : Options} {trial : Trial}

theorem rehearse_callsOnly {α : Type} {p : Program α} (hp : p.CallsOnly Call.IsOffline) :
    p.rehearse.CallsOnly trial.Calls := by
  refine (hp.rehearseFrom {}).mono ?_
  rintro (call | call | _) ⟨hoffline, hinside⟩
  · exact hoffline.elim
  · exact absurd trivial hinside
  · exact .inr rfl

theorem program_callsOnly (options : Options) (trial : Trial) :
    (trial.program options).CallsOnly trial.Calls := by
  have hread : trial.Calls (.store trial.definition) := .inl rfl
  have hstamp : trial.Calls .stamp := .inr rfl
  cases trial with
  | rule ruleId lead =>
    exact .map _ (.bind (.store hread) fun found => .bind (.orFail _ found) fun stored =>
        .bind (.stamp hstamp) fun fresh =>
      .bind (rehearse_callsOnly
        (applyActions_callsOnly (fun _ => trivial) (fun _ => trivial) _ _ _ _ _)) fun _ => .pure _)
  | workflow workflowId lead triggerData =>
    exact .map _ (.bind (.store hread) fun found => .bind (.orFail _ found) fun stored =>
        .bind (.stamp hstamp) fun fresh =>
      .bind (rehearse_callsOnly (Workflow.run_isOffline options stored _ lead)) fun _ => .pure _)

theorem store_answer {σ : Type} (host : FrailHost σ) (call : Call) (h : trial.Calls call) (s : σ) :
    host.store (host.answer call s).2 = host.store s := by
  obtain rfl | rfl := h
  · obtain ⟨-, hstore⟩ | ⟨-, hstore⟩ := host.answer_store trial.definition s
    · rw [hstore]
      cases trial <;> rfl
    · exact hstore
  · exact host.store_stamp s

theorem program_congr {σ τ : Type} {answer : (call : Call) → σ → call.Reply × σ}
    {other : (call : Call) → τ → call.Reply × τ} {s : σ} {t : τ} (options : Options) (trial : Trial)
    (hsame : (answer (.store trial.definition) s).1 = (other (.store trial.definition) t).1) :
    ((trial.program options).run answer s).1.map Answer.untimed =
      ((trial.program options).run other t).1.map Answer.untimed := by
  cases trial with
  | rule ruleId lead =>
    have hcommutes (ended : Outcome RuleTest) :
        (ended.map .rule).map Answer.untimed = (ended.map RuleTest.untimed).map .rule := by
      cases ended <;> rfl
    rw [program, Program.run_map, Program.run_map, hcommutes, hcommutes,
      Rule.test_congr options ruleId lead hsame]
  | workflow workflowId lead triggerData =>
    have hcommutes (ended : Outcome Preview) :
        (ended.map .workflow).map Answer.untimed = (ended.map Preview.untimed).map .workflow := by
      cases ended <;> rfl
    rw [program, Program.run_map, Program.run_map, hcommutes, hcommutes,
      Workflow.preview_congr options workflowId lead triggerData hsame]

/-- Whatever the store refuses, however the systems outside behave and whether it succeeds or not, a
trial leaves the store as it is and calls no system outside; and at any other place where its
definition is read alike, or is not readable in the same way, it is answered alike, up to times and
generated identifiers. -/
theorem leaves_no_trace {σ : Type} (host : FrailHost σ) (options : Options)
    (trial : Trial) (s : σ) :
    host.store ((trial.program options).run host.answer s).2 = host.store s ∧
    (∀ exchange ∈ (trial.program options).transcript host.answer s,
      exchange.call = .store trial.definition ∨ exchange.call = .stamp) ∧
    ∀ {τ : Type} (other : FrailHost τ) (t : τ),
      (host.answer (.store trial.definition) s).1 = (other.answer (.store trial.definition) t).1 →
      ((trial.program options).run host.answer s).1.map Answer.untimed =
        ((trial.program options).run other.answer t).1.map Answer.untimed := by
  refine ⟨?_, ?_, ?_⟩
  · exact (program_callsOnly options trial).view_run (store_answer host) s
  · exact (program_callsOnly options trial).of_mem (Program.runs_transcript host.answer _ s)
  · exact fun other t hsame => program_congr options trial hsame

/-- A preview beside a stored lead, and one without it in a store that fails after the definition
has been read. -/
theorem leaves_no_trace_followUp :
    let host := FrailHost.refusing
    let trial := Trial.workflow Workflow.followUp.id (some (.blank Program.stillFresh)) .null
    let s := ({ leads := [.blank Program.stillFresh], workflows := [Workflow.followUp] }, [])
    let t := ({ workflows := [Workflow.followUp] }, [false, true, true])
    host.store ((trial.program {}).run host.answer s).2 = host.store s ∧
    (∀ exchange ∈ (trial.program {}).transcript host.answer s,
      exchange.call = .store trial.definition ∨ exchange.call = .stamp) ∧
    (host.answer (.store trial.definition) s).1 = (host.answer (.store trial.definition) t).1 ∧
    ((trial.program {}).run host.answer s).1.map Answer.untimed =
      ((trial.program {}).run host.answer t).1.map Answer.untimed := by
  intro host trial s t
  have hsame :
    (host.answer (.store trial.definition) s).1 = (host.answer (.store trial.definition) t).1 := rfl
  obtain ⟨hstore, hcalls, halike⟩ := leaves_no_trace host {} trial s
  exact ⟨hstore, hcalls, hsame, halike host t hsame⟩

end Trial

end LeadAutomation
