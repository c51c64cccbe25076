import LeadAutomation.Proofs.Definitions

/-!
# Rules and workflows as registers

A register keeps records under keys, in the order in which the keys were put in. A record saved
under a key that is there takes the place of the one that had it, and a key that has been deleted is
put in anew, at the end. `IsRegister` says what a register holds after some writes, by the writes
alone: under each key what the last write about it saved, and the keys in the order of the writes
that put them in.

The rules and the workflows of a store are registers, whatever calls the store has answered:
`Store.keeps_registers`. So what is looked up is what was saved last, and where priorities tie the
rules come in the order in which they were made.
-/

namespace LeadAutomation

/-! ### Writes -/

/-- A record is saved, or what is there under a key is deleted. -/
inductive Write (α : Type) where
  | save (record : α)
  | delete (key : Uuid)

section

variable {α : Type} (id : α → Uuid)

/-- The key that a write is about. -/
def Write.key : Write α → Uuid
  | save record => id record
  | delete key => key

def Write.saved? : Write α → Option α
  | save record => some record
  | delete _ => none

/-- What is there under a key after some writes: what the last of those about it saved, if it saved
anything. -/
def latest? (writes : List (Write α)) (key : Uuid) : Option α :=
  (writes.reverse.find? fun write => write.key id = key).bind Write.saved?

/-- A write put a key in for good: it saved what was not there, and no later write deleted it. -/
structure PutsIn (writes : List (Write α)) (key : Uuid) (n : Nat) : Prop where
  saves : ∃ record, writes[n]? = some (.save record) ∧ id record = key
  anew : latest? id (writes.take n) key = none
  kept (m : Nat) (later : n < m) : writes[m]? ≠ some (.delete key)

/-- One key was put in before another. -/
def Precedes (writes : List (Write α)) (first second : Uuid) : Prop :=
  ∃ m n, PutsIn id writes first m ∧ PutsIn id writes second n ∧ m < n

/-- What a register holds after some writes. -/
structure IsRegister (writes : List (Write α)) (records : List α) : Prop where
  distinct : (records.map id).Nodup
  found (key : Uuid) : Store.find? id key records = latest? id writes key
  ordered : (records.map id).Pairwise (Precedes id writes)

end

section

variable {α : Type} {id : α → Uuid} {writes : List (Write α)} {write : Write α} {records : List α}
  {key : Uuid} {n : Nat}

theorem latest?_concat : latest? id (writes ++ [write]) key = if write.key id = key
    then write.saved? else latest? id writes key := by
  rw [latest?, List.reverse_append, List.reverse_singleton, List.singleton_append, List.find?_cons]
  by_cases h : write.key id = key <;> simp [h, latest?]

theorem PutsIn.lt_length (h : PutsIn id writes key n) : n < writes.length := by
  obtain ⟨record, hrecord, -⟩ := h.saves
  exact (List.getElem?_eq_some_iff.1 hrecord).1

theorem PutsIn.concat (h : PutsIn id writes key n) (hkept : write ≠ .delete key) :
    PutsIn id (writes ++ [write]) key n where
  saves := by
    rw [List.getElem?_append_left h.lt_length]
    exact h.saves
  anew := by
    rw [List.take_append_of_le_length h.lt_length.le]
    exact h.anew
  kept m hlater := by
    rcases Nat.lt_trichotomy m writes.length with hlt | rfl | hgt
    · rw [List.getElem?_append_left hlt]
      exact h.kept m hlater
    · simpa using hkept
    · rw [List.getElem?_eq_none (by simpa using Nat.succ_le_of_lt hgt)]
      nofun

theorem putsIn_concat {record : α} (h : latest? id writes (id record) = none) :
    PutsIn id (writes ++ [.save record]) (id record) writes.length where
  saves := ⟨record, by simp, rfl⟩
  anew := by rwa [List.take_left]
  kept m hlater := by
    rw [List.getElem?_eq_none (by simpa using Nat.succ_le_of_lt hlater)]
    nofun

theorem exists_putsIn (h : (latest? id writes key).isSome) : ∃ n, PutsIn id writes key n := by
  induction writes using List.reverseRecOn with
  | nil => cases h
  | append_singleton writes write ih =>
    rw [latest?_concat] at h
    by_cases hthere : (latest? id writes key).isSome
    · obtain ⟨n, hput⟩ := ih hthere
      refine ⟨n, hput.concat ?_⟩
      rintro rfl
      simp [Write.key, Write.saved?] at h
    · have hnone : latest? id writes key = none := by simpa using hthere
      rw [hnone] at h
      cases write with
      | delete other => simp [Write.saved?] at h
      | save record =>
        obtain rfl : id record = key := by
          by_contra hne
          simp [Write.key, hne] at h
        exact ⟨writes.length, putsIn_concat hnone⟩

/-- What a key was put in by is the work of the writes up to any later one. -/
theorem PutsIn.take {stop : Nat} (h : PutsIn id writes key n) (hlt : n < stop) :
    PutsIn id (writes.take stop) key n where
  saves := by
    rw [List.getElem?_take_of_lt hlt]
    exact h.saves
  anew := by
    rw [List.take_take, Nat.min_eq_left hlt.le]
    exact h.anew
  kept m hlater := by
    rw [List.getElem?_take]
    split
    · exact h.kept m hlater
    · nofun

theorem PutsIn.latest?_isSome (h : PutsIn id writes key n) : (latest? id writes key).isSome := by
  induction writes using List.reverseRecOn with
  | nil => exact absurd h.lt_length (Nat.not_lt_zero n)
  | append_singleton writes write ih =>
    rw [latest?_concat]
    have hlast : (writes ++ [write])[writes.length]? = some write := List.getElem?_concat_length
    have hwithin : n < writes.length + 1 := by simpa using h.lt_length
    rcases Nat.lt_succ_iff_lt_or_eq.1 hwithin with hlt | rfl
    · have hbefore : (latest? id writes key).isSome := by
        have hput := h.take hlt
        rw [List.take_left] at hput
        exact ih hput
      cases write with
      | save record =>
        split
        · rfl
        · exact hbefore
      | delete other =>
        have hne : other ≠ key := by
          rintro rfl
          exact h.kept _ hlt hlast
        simpa [Write.key, hne] using hbefore
    · obtain ⟨record, hrecord, rfl⟩ := h.saves
      obtain rfl := Option.some.inj (hlast.symm.trans hrecord)
      simp [Write.key, Write.saved?]

theorem PutsIn.unique {m : Nat} (hm : PutsIn id writes key m) (hn : PutsIn id writes key n) :
    m = n := by
  have hnot {early late : Nat} (hearly : PutsIn id writes key early)
      (hlate : PutsIn id writes key late) : ¬early < late := by
    intro hlt
    have hthere := (hearly.take hlt).latest?_isSome
    rw [hlate.anew] at hthere
    cases hthere
  exact Nat.le_antisymm (Nat.not_lt.1 (hnot hn hm)) (Nat.not_lt.1 (hnot hm hn))

theorem Precedes.asymm {first second : Uuid} (h : Precedes id writes first second) :
    ¬Precedes id writes second first := by
  rintro ⟨n', m', hn', hm', hlt'⟩
  obtain ⟨m, n, hm, hn, hlt⟩ := h
  rw [hm'.unique hm, hn'.unique hn] at hlt'
  exact Nat.lt_asymm hlt hlt'

theorem Precedes.concat {first second : Uuid} (h : Precedes id writes first second)
    (hfirst : write ≠ .delete first) (hsecond : write ≠ .delete second) :
    Precedes id (writes ++ [write]) first second := by
  obtain ⟨m, n, hm, hn, hlt⟩ := h
  exact ⟨m, n, hm.concat hfirst, hn.concat hsecond, hlt⟩

/-- What is there has been put in before what comes anew. -/
theorem precedes_concat {record : α} (hthere : (latest? id writes key).isSome)
    (hnew : latest? id writes (id record) = none) :
    Precedes id (writes ++ [.save record]) key (id record) := by
  obtain ⟨n, hput⟩ := exists_putsIn hthere
  exact ⟨n, writes.length, hput.concat nofun, putsIn_concat hnew, hput.lt_length⟩

/-! ### What a write does to a register -/

theorem isRegister_nil : IsRegister id ([] : List (Write α)) [] := ⟨.nil, fun _ => rfl, .nil⟩

theorem map_upsert_of_isRegister (h : IsRegister id writes records) (record : α) :
    (Store.upsert id record records).map id =
      if (latest? id writes (id record)).isSome then records.map id
      else records.map id ++ [id record] := by
  rw [← h.found]
  cases hfound : Store.find? id (id record) records with
  | some existing => exact Store.map_upsert hfound (Store.id_of_find? hfound)
  | none => simp [Store.upsert_of_find?_eq_none hfound]

theorem IsRegister.mem_iff (h : IsRegister id writes records) (record : α) :
    record ∈ records ↔ latest? id writes (id record) = some record := by
  rw [← h.found, Store.find?_id_eq_some_iff h.distinct]

theorem IsRegister.save (h : IsRegister id writes records) (record : α) :
    IsRegister id (writes ++ [.save record]) (Store.upsert id record records) where
  distinct := Store.nodup_upsert h.distinct
  found key := by
    rw [Store.find?_upsert, h.found, latest?_concat]
    rfl
  ordered := by
    have hkept : (records.map id).Pairwise (Precedes id (writes ++ [.save record])) :=
      h.ordered.imp fun hprecedes => hprecedes.concat nofun nofun
    rw [map_upsert_of_isRegister h]
    split
    · exact hkept
    · next hnew =>
      refine List.pairwise_append.2 ⟨hkept, List.pairwise_singleton _ _,
        fun key hkey other hother => ?_⟩
      obtain ⟨existing, hmem, rfl⟩ := List.mem_map.1 hkey
      obtain rfl := List.mem_singleton.1 hother
      exact precedes_concat (Option.isSome_of_eq_some ((h.mem_iff existing).1 hmem))
        (by simpa using hnew)

theorem IsRegister.delete (h : IsRegister id writes records) (key : Uuid) :
    IsRegister id (writes ++ [.delete key]) (records.filter fun record => id record ≠ key) where
  distinct := h.distinct.sublist (List.filter_sublist.map id)
  found other := by
    rw [latest?_concat, ← h.found, Store.find?_filter_ne]
    rfl
  ordered := by
    have hleft : ∀ other ∈ (records.filter fun record => id record ≠ key).map id,
        Write.delete key ≠ (.delete other : Write α) := by
      intro other hmem heq
      obtain ⟨record, hrecord, rfl⟩ := List.mem_map.1 hmem
      cases heq
      simp at hrecord
    refine (h.ordered.sublist (List.filter_sublist.map id)).imp_of_mem
      fun hfirst hsecond hprecedes => ?_
    exact hprecedes.concat (hleft _ hfirst) (hleft _ hsecond)

/-- The writes determine a register. -/
theorem IsRegister.iff_eq (h : IsRegister id writes records) (others : List α) :
    IsRegister id writes others ↔ others = records := by
  constructor
  · intro hothers
    have hperm : others.Perm records :=
        (List.perm_ext_iff_of_nodup hothers.distinct.of_map h.distinct.of_map).2 fun record => by
      rw [h.mem_iff, hothers.mem_iff]
    refine hperm.eq_of_pairwise ?_ (List.pairwise_map.1 hothers.ordered)
      (List.pairwise_map.1 h.ordered)
    exact fun _ _ _ _ hbefore hafter => absurd hafter hbefore.asymm
  · rintro rfl
    exact h

/-- What a selection from a register lists: what was saved last and meets the condition, in the
order of the register. -/
theorem IsRegister.mem_filter_iff (h : IsRegister id writes records) (condition : α → Bool)
    (record : α) :
    record ∈ records.filter condition ↔
    latest? id writes (id record) = some record ∧ condition record = true := by
  rw [List.mem_filter, h.mem_iff]

theorem IsRegister.length_filter_ne_iff (h : IsRegister id writes records) (key : Uuid) :
    (records.filter fun record => id record ≠ key).length ≠ records.length ↔
    (latest? id writes key).isSome := by
  rw [← h.found, Ne, List.length_filter_eq_length_iff, Option.isSome_iff_ne_none, Ne,
    Store.find?_eq_none_iff]
  simp

end

/-! ### The store -/

namespace StoreCall

/-- What a call writes of rules. -/
def ruleWrite? : StoreCall → Option (Write Rule)
  | saveRule rule => some (.save rule)
  | deleteRule id => some (.delete id)
  | _ => none

/-- What a call writes of workflows. -/
def workflowWrite? : StoreCall → Option (Write Workflow)
  | saveWorkflow workflow => some (.save workflow)
  | _ => none

theorem writes_of_sparesDefinitions {call : StoreCall} (h : (Call.store call).SparesDefinitions) :
    call.ruleWrite? = none ∧ call.workflowWrite? = none := by
  cases call with
  | saveRule rule => exact h.elim
  | deleteRule id => exact h.elim
  | saveWorkflow workflow => exact h.elim
  | _ => exact ⟨rfl, rfl⟩

end StoreCall

namespace Store

/-- The store after some calls, each at a time of its own. -/
def after (store : Store) (calls : List (Timestamp × StoreCall)) : Store :=
  calls.foldl (fun store timed => (store.answer timed.1 timed.2).2) store

/-- A store has rules and workflows as registers, after some writes of each. -/
structure IsRegisters (rules : List (Write Rule)) (workflows : List (Write Workflow))
    (store : Store) : Prop where
  rules : IsRegister Rule.id rules store.rules
  workflows : IsRegister Workflow.id workflows store.workflows

section

variable {store next : Store} {rules : List (Write Rule)} {workflows : List (Write Workflow)}

theorem IsRegisters.congr (hsame : next.definitions = store.definitions)
    (h : store.IsRegisters rules workflows) :
    next.IsRegisters rules workflows := by
  obtain ⟨hrules, hworkflows⟩ := Prod.mk.inj hsame
  exact ⟨hrules ▸ h.rules, hworkflows ▸ h.workflows⟩

theorem IsRegisters.answer (h : store.IsRegisters rules workflows) (now : Timestamp)
    (call : StoreCall) :
    (store.answer now call).2.IsRegisters (rules ++ call.ruleWrite?.toList)
      (workflows ++ call.workflowWrite?.toList) := by
  by_cases hspares : (Call.store call).SparesDefinitions
  · obtain ⟨hrule, hworkflow⟩ := StoreCall.writes_of_sparesDefinitions hspares
    simpa [hrule, hworkflow] using h.congr (definitions_answer hspares)
  · cases call with
    | saveRule rule => exact ⟨h.rules.save rule, (List.append_nil workflows).symm ▸ h.workflows⟩
    | deleteRule id => exact ⟨h.rules.delete id, (List.append_nil workflows).symm ▸ h.workflows⟩
    | saveWorkflow workflow =>
      exact ⟨(List.append_nil rules).symm ▸ h.rules, h.workflows.save workflow⟩
    | _ => exact absurd trivial hspares

end

theorem after_concat (calls : List (Timestamp × StoreCall)) (timed : Timestamp × StoreCall) :
    after {} (calls ++ [timed]) = ((after {} calls).answer timed.1 timed.2).2 :=
  List.foldl_concat _ _ _ _

/-- Rules and workflows are registers at any time, of the writes up to then. -/
theorem isRegisters_after (calls : List (Timestamp × StoreCall)) :
    (after {} calls).IsRegisters (calls.filterMap fun timed => timed.2.ruleWrite?)
      (calls.filterMap fun timed => timed.2.workflowWrite?) := by
  induction calls using List.reverseRecOn with
  | nil => exact ⟨isRegister_nil, isRegister_nil⟩
  | append_singleton calls timed ih =>
    have hlast {α : Type} (write? : StoreCall → Option (Write α)) :
        [timed].filterMap (fun timed => write? timed.2) = (write? timed.2).toList := by
      cases h : write? timed.2 <;> simp [h]
    rw [after_concat, List.filterMap_append, List.filterMap_append, hlast, hlast]
    exact ih.answer timed.1 timed.2

/-- **Rules and workflows are registers**, whatever calls a store has answered since it was empty:
their identifiers are distinct, what is there under an identifier is what was saved last since it
was last deleted, and they stand in the order in which their identifiers were put in.

All calls go by this. What is looked up is what is there. What is saved stays in the place of the
one before it or comes last. A deletion tells whether there was something to delete and leaves all
else, as it was. And what is listed is what is active and meets the condition, in the order of the
register. -/
theorem keeps_registers (calls : List (Timestamp × StoreCall)) (now : Timestamp) :
    let store := after {} calls
    let rules := calls.filterMap fun timed => timed.2.ruleWrite?
    let workflows := calls.filterMap fun timed => timed.2.workflowWrite?
    (∀ records, IsRegister Rule.id rules records ↔ records = store.rules) ∧
      (∀ records, IsRegister Workflow.id workflows records ↔ records = store.workflows) ∧
      (∀ id, (store.answer now (.getRule id)).1 = .ok (latest? Rule.id rules id)) ∧
      (∀ id, (store.answer now (.getWorkflow id)).1 = .ok (latest? Workflow.id workflows id)) ∧
      (∀ rule, (store.answer now (.saveRule rule)).2.rules.map Rule.id =
        if (latest? Rule.id rules rule.id).isSome then store.rules.map Rule.id
        else store.rules.map Rule.id ++ [rule.id]) ∧
      (∀ workflow, (store.answer now (.saveWorkflow workflow)).2.workflows.map Workflow.id =
        if (latest? Workflow.id workflows workflow.id).isSome then store.workflows.map Workflow.id
        else store.workflows.map Workflow.id ++ [workflow.id]) ∧
      (∀ id, (store.answer now (.deleteRule id)).1 = .ok (latest? Rule.id rules id).isSome ∧
        (store.answer now (.deleteRule id)).2.rules.Sublist store.rules ∧
        ∀ rule, rule ∈ (store.answer now (.deleteRule id)).2.rules ↔
        rule ∈ store.rules ∧ rule.id ≠ id) ∧
      (∀ kind, ∃ listed, (store.answer now (.listActiveRules kind)).1 = .ok listed ∧
        listed.Sublist store.rules ∧
        ∀ rule, rule ∈ listed ↔
          latest? Rule.id rules rule.id = some rule ∧ rule.active = true ∧
          (kind = none ∨ kind = some rule.kind)) ∧
      ∀ trigger, ∃ listed, (store.answer now (.listActiveWorkflows trigger)).1 = .ok listed ∧
        listed.Sublist store.workflows ∧ ∀ workflow, workflow ∈ listed ↔
          latest? Workflow.id workflows workflow.id = some workflow ∧ workflow.active = true ∧
          workflow.trigger = trigger := by
  intro store rules workflows
  obtain ⟨hrules, hworkflows⟩ := isRegisters_after calls
  refine ⟨hrules.iff_eq, hworkflows.iff_eq, ?_, ?_, ?_, ?_, ?_, ?_, ?_⟩
  · exact fun id => congrArg Except.ok (hrules.found id)
  · exact fun id => congrArg Except.ok (hworkflows.found id)
  · exact map_upsert_of_isRegister hrules
  · exact map_upsert_of_isRegister hworkflows
  · intro id
    refine ⟨congrArg Except.ok ?_, List.filter_sublist, fun rule => ?_⟩
    · rw [Bool.eq_iff_iff, decide_eq_true_iff]
      exact hrules.length_filter_ne_iff id
    · exact List.mem_filter.trans (and_congr_right fun _ => decide_eq_true_iff)
  · intro kind
    refine ⟨_, rfl, List.filter_sublist, fun rule => ?_⟩
    refine (hrules.mem_filter_iff _ rule).trans (and_congr_right fun _ => ?_)
    rw [Bool.and_eq_true]
    refine and_congr_right fun _ => ?_
    cases kind with
    | none => simp
    | some wanted => simpa using eq_comm
  · intro trigger
    refine ⟨_, rfl, List.filter_sublist, fun workflow => ?_⟩
    rw [hworkflows.mem_filter_iff, Bool.and_eq_true, decide_eq_true_iff]

end Store

end LeadAutomation
