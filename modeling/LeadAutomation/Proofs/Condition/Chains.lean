import LeadAutomation.Condition
import Mathlib.Data.List.Induction

/-!
# What decides a chain of conditions

A chain is evaluated from the left, with no precedence among its connectives, so that an `or` keeps
what was true before it and an `and` can undo everything before it. A chain is therefore true just
if one of its conditions carries it to the end: the condition holds, it stands first or behind an
`or`, and so does every condition behind it that an `and` joins. Of the conditions nothing counts
but their results, and of the connectives the last does not count.
-/

namespace LeadAutomation

namespace Condition

/-- Among the results of a chain and the connectives behind each, result `k` carries the chain: it
is true, it stands first or behind an `or`, and every later result that an `and` joins is true as
well. -/
structure Carries (results : List Bool) (connectives : List Connective) (k : Nat) : Prop where
  holds : results[k]? = some true
  opens : k = 0 ∨ connectives[k - 1]? = some .or
  kept (j : Nat) : k < j → j < results.length → connectives[j - 1]? = some .and →
    results[j]? = some true

section Carries

variable {results : List Bool} {connectives : List Connective} {joint last : Connective}
  {result : Bool} {k : Nat}

theorem Carries.lt_length (h : Carries results connectives k) : k < results.length :=
  (List.getElem?_eq_some_iff.1 h.holds).1

/-- Only connectives between results count. -/
theorem Carries.of_dropLast_eq {others : List Connective}
    (hlength : connectives.length = results.length) (hlength' : others.length = results.length)
    (hjoints : connectives.dropLast = others.dropLast) (h : Carries results connectives k) :
    Carries results others k := by
  have hsame (j : Nat) (hpos : 0 < j) (hj : j < results.length) :
      connectives[j - 1]? = others[j - 1]? := by
    have hjoint := congrArg (fun joints => joints[j - 1]?) hjoints
    rwa [List.getElem?_dropLast, List.getElem?_dropLast, if_pos (by omega),
      if_pos (by omega)] at hjoint
  refine ⟨h.holds, ?_, fun j hlater hj hand => ?_⟩
  · refine k.eq_zero_or_pos.imp_right fun hpos => ?_
    rw [← hsame k hpos h.lt_length]
    exact h.opens.resolve_left (Nat.ne_of_gt hpos)
  · rw [← hsame j (Nat.zero_lt_of_lt hlater) hj] at hand
    exact h.kept j hlater hj hand

/-- One more result carries a chain if an `or` is before it, and it lets the earlier ones carry the
chain unless an `and` joins a failure. -/
theorem carries_concat (hlength : results.length = connectives.length + 1) :
    Carries (results ++ [result]) (connectives ++ [joint, last]) k ↔
      k = results.length ∧ result = true ∧ joint = .or ∨
      Carries results (connectives ++ [joint]) k ∧ (joint = .and → result = true) := by
  -- Up to the new result both lists read as before; `joint` comes to stand between it and what was
  -- there.
  have hnew : (results ++ [result])[results.length]? = some result := List.getElem?_concat_length
  have hold {j : Nat} (hj : j < results.length) : (results ++ [result])[j]? = results[j]? :=
    List.getElem?_append_left hj
  have hjoint : (connectives ++ [joint, last])[results.length - 1]? = some joint := by
    simp [hlength]
  have hjoints {j : Nat} (hj : j < results.length) :
      (connectives ++ [joint, last])[j - 1]? = (connectives ++ [joint])[j - 1]? := by
    rw [List.append_cons, List.getElem?_append_left (by simp; omega)]
  constructor
  · intro h
    have hk : k < results.length + 1 := by simpa using h.lt_length
    -- Either an earlier result carries the chain, and the new one has to be kept, or the new one
    -- does.
    rcases Nat.lt_succ_iff_lt_or_eq.1 hk with hearlier | rfl
    · refine .inr ⟨⟨hold hearlier ▸ h.holds, ?_, fun j hlater hj hand => ?_⟩, fun hand => ?_⟩
      · exact hjoints hearlier ▸ h.opens
      · exact hold hj ▸ h.kept j hlater (by simp; omega) (hjoints hj ▸ hand)
      · subst hand
        exact Option.some.inj (hnew ▸ h.kept results.length hearlier (by simp) hjoint)
    · refine .inl ⟨rfl, Option.some.inj (hnew ▸ h.holds),
        Option.some.inj (hjoint ▸ h.opens.resolve_left (by omega))⟩
  · rintro (⟨rfl, rfl, rfl⟩ | ⟨h, hresult⟩)
    · exact ⟨hnew, .inr hjoint, fun j hlater hj => absurd hj (by simp; omega)⟩
    · refine ⟨hold h.lt_length ▸ h.holds, hjoints h.lt_length ▸ h.opens, fun j hlater hj hand => ?_⟩
      rcases Nat.lt_succ_iff_lt_or_eq.1 (by simpa using hj) with hearlier | rfl
      · exact hold hearlier ▸ h.kept j hlater hearlier (hjoints hearlier ▸ hand)
      · rw [hnew, hresult (Option.some.inj (hjoint ▸ hand))]

end Carries

variable {lookup : String → Option FieldValue}

theorem chainHolds_concat (conditions : List Condition) (previous last : Condition) :
    chainHolds lookup (conditions ++ [previous, last]) =
      previous.connective.combine (chainHolds lookup (conditions ++ [previous]))
        (last.holds lookup) := by
  cases conditions with
  | nil => rfl
  | cons first rest => simp [chainHolds, advance]

theorem chainHolds_concat_iff (conditions : List Condition) (last : Condition) :
    chainHolds lookup (conditions ++ [last]) = true ↔
      ∃ k, Carries (eachHolds lookup (conditions ++ [last]))
        ((conditions ++ [last]).map connective) k := by
  induction conditions using List.reverseRecOn generalizing last with
  | nil =>
    constructor
    · intro h
      exact ⟨0, congrArg some h, .inl rfl,
        fun j hlater hj => absurd hlater (Nat.not_lt.2 (Nat.le_of_lt_succ hj))⟩
    · rintro ⟨k, h⟩
      obtain rfl : k = 0 := Nat.lt_one_iff.1 h.lt_length
      exact Option.some.inj h.holds
  | append_singleton earlier previous ih =>
    have hlength : (eachHolds lookup (earlier ++ [previous])).length =
        (earlier.map connective).length + 1 := by
      simp [eachHolds]
    have hresults : eachHolds lookup (earlier ++ [previous, last]) =
        eachHolds lookup (earlier ++ [previous]) ++ [last.holds lookup] := by simp [eachHolds]
    specialize ih previous
    rw [List.map_append, List.map_singleton] at ih
    rw [List.append_assoc, List.singleton_append, chainHolds_concat, hresults, List.map_append,
      List.map_cons, List.map_singleton]
    simp only [carries_concat hlength, exists_or, exists_and_right, exists_eq, true_and, ← ih]
    cases previous.connective with
    | and => simp [Connective.combine]
    | or => simp [Connective.combine, or_comm]

theorem chainHolds_iff_exists_carries {conditions : List Condition} (hne : conditions ≠ []) :
    chainHolds lookup conditions = true ↔
      ∃ k, Carries (eachHolds lookup conditions) (conditions.map connective) k := by
  rw [← List.dropLast_concat_getLast hne]
  exact chainHolds_concat_iff _ _

theorem chainHolds_congr {lookup' : String → Option FieldValue}
    {conditions conditions' : List Condition}
    (hresults : eachHolds lookup' conditions' = eachHolds lookup conditions)
    (hjoints : (conditions'.map connective).dropLast = (conditions.map connective).dropLast) :
    chainHolds lookup' conditions' = chainHolds lookup conditions := by
  have hlengths : conditions'.length = conditions.length := by
    simpa [eachHolds] using congrArg List.length hresults
  by_cases hne : conditions = []
  · obtain rfl : conditions' = [] := List.eq_nil_of_length_eq_zero (by rw [hlengths, hne]; rfl)
    rw [hne]
    rfl
  · have hne' : conditions' ≠ [] :=
      fun hnil => hne (List.eq_nil_of_length_eq_zero (by rw [← hlengths, hnil]; rfl))
    rw [Bool.eq_iff_iff, chainHolds_iff_exists_carries hne,
      chainHolds_iff_exists_carries hne', hresults]
    have hlength : (conditions.map connective).length = (eachHolds lookup conditions).length := by
      simp [eachHolds]
    have hlength' : (conditions'.map connective).length = (eachHolds lookup conditions).length := by
      simp [eachHolds, hlengths]
    exact exists_congr fun k =>
      ⟨Carries.of_dropLast_eq hlength' hlength hjoints,
        Carries.of_dropLast_eq hlength hlength' hjoints.symm⟩

/-- A chain is true just if one of its conditions carries it; so its result depends on nothing but
the results of its conditions and the connectives between them, and any other chain, wherever it
looks, that shares these has the same result. -/
theorem chain_decided (lookup : String → Option FieldValue) {conditions : List Condition}
    (hne : conditions ≠ []) :
    (chainHolds lookup conditions = true ↔
      ∃ k, Carries (eachHolds lookup conditions) (conditions.map connective) k) ∧
    ∀ (lookup' : String → Option FieldValue) (conditions' : List Condition),
      eachHolds lookup' conditions' = eachHolds lookup conditions →
      (conditions'.map connective).dropLast = (conditions.map connective).dropLast →
      chainHolds lookup' conditions' = chainHolds lookup conditions :=
  ⟨chainHolds_iff_exists_carries hne, fun _ _ hresults hjoints => chainHolds_congr hresults hjoints⟩

/-- What is found of a raw lead about which nothing else is known. -/
def rawOnly (name : String) : Option FieldValue :=
  if name = "status" then some (.text "RAW") else none

/-- The lead is raw or French, and in either case nobody's. -/
def unclaimed : List Condition :=
  [(statusIs .raw).or, of "country" .equals (.text "FR"),
    of "assigned_to" .notEquals (.text "someone")]

theorem chain_decided_unclaimed :
    unclaimed ≠ [] ∧ eachHolds rawOnly unclaimed = [true, false, true] ∧
    (chainHolds rawOnly unclaimed = true ↔ ∃ k, Carries [true, false, true] [.or, .and, .and] k) ∧
    chainHolds rawOnly
      (unclaimed.dropLast ++ [(of "assigned_to" .notEquals (.text "someone")).or]) =
      chainHolds rawOnly unclaimed := by
  have hresults : eachHolds rawOnly unclaimed = [true, false, true] := by decide +kernel
  have hne : unclaimed ≠ [] := List.cons_ne_nil _ _
  obtain ⟨hcarried, hcongr⟩ := chain_decided rawOnly hne
  refine ⟨hne, hresults, hresults ▸ hcarried, hcongr _ _ ?_ rfl⟩
  rw [hresults]
  decide +kernel

end Condition

end LeadAutomation
