import LeadAutomation.Proofs.Order
import LeadAutomation.Rule.Match

/-!
# Which rules are tried

Trying all rules gives one result for each active rule, by descending priority and otherwise as
listed. Trying them up to the first match gives the shortest part of these from the front that ends
in a match. That last match is the rule that wins: among the active rules that match, no other has a
higher priority, and none of the same priority is listed before it.

Nothing else about the list matters: inactive rules can be taken out beforehand, and where no two
rules share a priority their order does not count.
-/

namespace LeadAutomation

namespace Rule

/-! ### Up to the first match -/

def EndsInMatch (results : List RuleMatch) : Prop :=
  ∃ last, results.getLast? = some last ∧ last.matched = true

/-- What is tried of some results: the shortest of their beginnings that ends in a match, or all if
there is no match. -/
structure IsUpToMatch (results tried : List RuleMatch) : Prop where
  begins : tried <+: results
  ends : (∃ result ∈ results, result.matched = true) → EndsInMatch tried
  shortest (others : List RuleMatch) : others <+: results → EndsInMatch others →
    tried.length ≤ others.length
  whole : (∀ result ∈ results, result.matched = false) → tried = results

variable {results front back : List RuleMatch} {last : RuleMatch}

theorem upToMatch_of_unmatched (h : ∀ result ∈ results, result.matched = false) :
    upToMatch results = results := by
  induction results with
  | nil => rfl
  | cons first rest ih =>
    obtain ⟨hfirst, hrest⟩ := List.forall_mem_cons.1 h
    rw [upToMatch, hfirst, ih hrest]
    rfl

theorem upToMatch_append (hfront : ∀ result ∈ front, result.matched = false)
    (hlast : last.matched = true) :
    upToMatch (front ++ last :: back) = front ++ [last] := by
  induction front with
  | nil => rw [List.nil_append, upToMatch, if_pos hlast, List.nil_append]
  | cons first rest ih =>
    obtain ⟨hfirst, hrest⟩ := List.forall_mem_cons.1 hfront
    rw [List.cons_append, upToMatch, hfirst, ih hrest]
    rfl

/-- Results without a match, or the first match between the results before and behind it. -/
theorem unmatched_or_split (results : List RuleMatch) :
    (∀ result ∈ results, result.matched = false) ∨
      ∃ front last back, results = front ++ last :: back ∧
      (∀ result ∈ front, result.matched = false) ∧
        last.matched = true := by
  cases hfound : results.find? (·.matched) with
  | none => exact .inl fun result hmem => by simpa using List.find?_eq_none.1 hfound result hmem
  | some last =>
    obtain ⟨hlast, front, back, hresults, hfront⟩ := List.find?_eq_some_iff_append.1 hfound
    exact .inr ⟨front, last, back, hresults,
      fun result hmem => by simpa using hfront result hmem, hlast⟩

theorem not_endsInMatch_of_unmatched (h : ∀ result ∈ results, result.matched = false) :
    ¬ EndsInMatch results := by
  rintro ⟨last, hlast, hmatched⟩
  exact absurd hmatched (by simp [h last (List.mem_of_getLast? hlast)])

theorem isUpToMatch_upToMatch (results : List RuleMatch) :
    IsUpToMatch results (upToMatch results) := by
  rcases unmatched_or_split results with hnone | ⟨front, last, back, rfl, hfront, hlast⟩
  · rw [upToMatch_of_unmatched hnone]
    refine ⟨List.prefix_rfl, ?_, fun others hbegins hends => ?_, fun _ => rfl⟩
    · rintro ⟨result, hmem, hmatched⟩
      exact absurd hmatched (by simp [hnone result hmem])
    · exact absurd hends
        (not_endsInMatch_of_unmatched fun result hmem => hnone result (hbegins.subset hmem))
  · rw [upToMatch_append hfront hlast]
    have hends : EndsInMatch (front ++ [last]) := ⟨last, List.getLast?_concat, hlast⟩
    refine ⟨⟨back, by simp⟩, fun _ => hends, fun others hbegins hends => ?_, fun hnone => ?_⟩
    · -- A beginning that is shorter consists of what is before the match.
      refine Nat.le_of_not_lt fun hshorter => ?_
      rw [List.length_append, List.length_singleton] at hshorter
      have hwithin : others <+: front :=
        List.prefix_of_prefix_length_le hbegins (List.prefix_append ..) (Nat.le_of_lt_succ hshorter)
      exact not_endsInMatch_of_unmatched
        (fun result hmem => hfront result (hwithin.subset hmem)) hends
    · exact absurd hlast (by simp [hnone last (by simp)])

theorem find?_of_getLast?_upToMatch (hlast : (upToMatch results).getLast? = some last)
    (hmatched : last.matched = true) :
    results.find? (·.matched) = some last := by
  rcases unmatched_or_split results with hnone | ⟨front, first, back, rfl, hfront, hfirst⟩
  · rw [upToMatch_of_unmatched hnone] at hlast
    exact absurd ⟨last, hlast, hmatched⟩ (not_endsInMatch_of_unmatched hnone)
  · rw [upToMatch_append hfront hfirst, List.getLast?_concat] at hlast
    cases hlast
    exact List.find?_eq_some_iff_append.2 ⟨hmatched, front, back, rfl,
      fun result hmem => by simp [hfront result hmem]⟩

/-! ### In the order of priority -/

variable {rules others : List Rule} {lookup : String → Option FieldValue} {policy : EmptyRulePolicy}

theorem inOrder_stablySorted (rules : List Rule) :
    StablySorted (fun p q => q ≤ p) priority (rules.filter (·.active)) (inOrder rules) :=
  byPriority_stablySorted priority _

theorem inOrder_perm (rules : List Rule) : (inOrder rules).Perm (rules.filter (·.active)) :=
  List.mergeSort_perm _ _

theorem inOrder_filter_active (rules : List Rule) :
    inOrder (rules.filter (·.active)) = inOrder rules := by
  rw [inOrder, List.filter_filter]
  simp only [Bool.and_self, inOrder]

theorem inOrder_of_perm (h : rules.Perm others) (hpriorities : (rules.map priority).Nodup) :
    inOrder rules = inOrder others := by
  have hactive : ((rules.filter (·.active)).map priority).Nodup :=
    (List.filter_sublist.map priority).nodup hpriorities
  exact byPriority_congr (filter_key_of_perm (h.filter _) hactive)

theorem tryAll_congr (h : inOrder rules = inOrder others) (mode : MatchMode) :
    tryAll rules lookup policy mode = tryAll others lookup policy mode := by
  simp only [tryAll, h]

theorem tryAll_all_stablySorted (rules : List Rule) (lookup : String → Option FieldValue)
    (policy : EmptyRulePolicy) :
    StablySorted (fun p q => q ≤ p) RuleMatch.priority
      ((rules.filter (·.active)).map fun rule => rule.tryOn lookup policy)
      (tryAll rules lookup policy .all) := by
  have hsorted : StablySorted (fun p q => q ≤ p) (fun rule => (tryOn rule lookup policy).priority)
      (rules.filter (·.active)) (inOrder rules) := inOrder_stablySorted rules
  exact hsorted.map _

/-- Among the rules that match, the one that no other exceeds in priority and that is listed before
those it ties with. -/
def IsForemost (rules : List Rule) (isMatch : Rule → Bool) (rule : Rule) : Prop :=
  isMatch rule = true ∧ (∀ other ∈ rules, isMatch other = true → other.priority ≤ rule.priority) ∧
    ∃ earlier later, rules = earlier ++ rule :: later ∧
      ∀ other ∈ earlier, isMatch other = true → other.priority < rule.priority

theorem active_of_isMatch {rule : Rule} (h : rule.isMatch lookup policy = true) :
    rule.active = true :=
  (Bool.and_eq_true_iff.1 h).1

theorem isForemost_of_find? {rule : Rule}
    (hfound : (inOrder rules).find? (fun rule => rule.isMatch lookup policy) = some rule) :
    IsForemost rules (fun rule => rule.isMatch lookup policy) rule := by
  obtain ⟨hhighest, earlier, later, rfl, hearlier⟩ :=
    (inOrder_stablySorted rules).earliest_of_find? (fun p => Int32.le_refl p)
      (fun _ => active_of_isMatch) hfound
  have hmatches := List.find?_some hfound
  refine ⟨hmatches, hhighest, earlier, later, rfl, fun other hmem hmatch => ?_⟩
  exact Int32.lt_of_le_of_ne (hhighest other (List.mem_append_left _ hmem) hmatch)
    (hearlier other hmem hmatch)

theorem exists_isForemost_of_getLast?
    (hlast : (tryAll rules lookup policy .single).getLast? = some last)
    (hmatched : last.matched = true) :
    ∃ rule, IsForemost rules (fun rule => rule.isMatch lookup policy) rule ∧
    last = rule.tryOn lookup policy := by
  have hfound := find?_of_getLast?_upToMatch hlast hmatched
  rw [List.find?_map] at hfound
  obtain ⟨rule, hrule, rfl⟩ := Option.map_eq_some_iff.1 hfound
  exact ⟨rule, isForemost_of_find? hrule, rfl⟩

/-- Which rules are tried and in which order, in either mode: all the active ones, by priority and
then as listed, up to the foremost one that matches if only one match is asked for, whatever
inactive rules there are and, where no two rules share a priority, in whichever order they stand. -/
theorem tryAll_inOrder (rules : List Rule) (lookup : String → Option FieldValue)
    (policy : EmptyRulePolicy) :
    let all := tryAll rules lookup policy .all
    let single := tryAll rules lookup policy .single
    let active := (rules.filter (·.active)).map fun rule => rule.tryOn lookup policy
    (all.Perm active ∧ StablySorted (fun p q => q ≤ p) RuleMatch.priority active all) ∧
    IsUpToMatch all single ∧
    (∀ last, single.getLast? = some last → last.matched = true →
      ∃ rule, IsForemost rules (fun rule => rule.isMatch lookup policy) rule ∧
      last = rule.tryOn lookup policy) ∧
    (∀ mode, tryAll (rules.filter (·.active)) lookup policy mode =
      tryAll rules lookup policy mode) ∧
    ∀ mode others, rules.Perm others → (rules.map priority).Nodup →
      tryAll others lookup policy mode = tryAll rules lookup policy mode := by
  intro all single active
  refine ⟨⟨(inOrder_perm rules).map _, tryAll_all_stablySorted rules lookup policy⟩,
    isUpToMatch_upToMatch all,
    fun last hlast hmatched => exists_isForemost_of_getLast? hlast hmatched, ?_, ?_⟩
  · exact tryAll_congr (inOrder_filter_active rules)
  · exact fun mode others hperm hpriorities =>
      tryAll_congr (inOrder_of_perm hperm hpriorities).symm mode

/-- Three rules for every lead, the one with the highest priority switched off. -/
def forEveryone (fresh : Fresh) : List Rule :=
  [blank fresh "Tell sales" .notification 10, inactive (blank fresh "Drop" .statusChange 90),
    blank fresh "Score" .scoring 50]

theorem tryAll_inOrder_forEveryone :
    let fresh : Fresh := ⟨.epoch, fun n => ⟨BitVec.ofNat 128 n⟩⟩
    let rules := forEveryone fresh
    let lookup := fun _ => none
    ∃ last, (tryAll rules lookup .matchAll .single).getLast? = some last ∧ last.matched = true ∧
      (∃ rule, IsForemost rules (fun rule => rule.isMatch lookup .matchAll) rule ∧
        last = rule.tryOn lookup .matchAll) ∧
      rules.Perm rules.reverse ∧ (rules.map priority).Nodup ∧
      tryAll rules.reverse lookup .matchAll .all = tryAll rules lookup .matchAll .all := by
  intro fresh rules lookup
  obtain ⟨⟨hperm, -⟩, htried, hforemost, -, hreordered⟩ := tryAll_inOrder rules lookup .matchAll
  let scoring := blank fresh "Score" .scoring 50
  have hactive : scoring ∈ rules.filter (·.active) :=
    List.mem_filter.2 ⟨List.mem_of_getLast? rfl, rfl⟩
  have hmem : scoring.tryOn lookup .matchAll ∈ tryAll rules lookup .matchAll .all :=
    hperm.mem_iff.2 (List.mem_map_of_mem hactive)
  obtain ⟨last, hlast, hmatched⟩ := htried.ends ⟨_, hmem, rfl⟩
  have hreversed : rules.Perm rules.reverse := (List.reverse_perm rules).symm
  have hpriorities : (rules.map priority).Nodup := by decide
  exact ⟨last, hlast, hmatched, hforemost last hlast hmatched, hreversed, hpriorities,
    hreordered .all _ hreversed hpriorities⟩

end Rule

end LeadAutomation
