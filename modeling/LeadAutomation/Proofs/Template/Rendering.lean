import LeadAutomation.Proofs.Template.Patterns
import LeadAutomation.RecordView

/-!
# Rendering

A template is put together from pieces that do not depend on any value, so what a value looks like
does not matter: it is not read again. `render_onePass` says so, and it says what rendering is in
two ways that do not mention pieces. One is a scan that goes once from left to right over the
template, and the other is the replacement of all matches of the pattern of placeholders.
-/

namespace LeadAutomation.Template

/-! ### Placeholders -/

/-- What may stand between the braces of a placeholder. -/
structure IsInner (inner : List Char) : Prop where
  nonempty : inner ≠ []
  plain : ∀ c ∈ inner, isBrace c = false

/-- A placeholder as it stands in a template. -/
def source (inner : List Char) : List Char := '\x7b' :: '\x7b' :: inner ++ ['\x7d', '\x7d']

theorem placeholder?_eq_some_iff {cs inner after : List Char} :
    placeholder? cs = some (inner, after) ↔ IsInner inner ∧ cs = source inner ++ after := by
  constructor
  · intro h
    unfold placeholder? at h
    split at h
    · next rest =>
      dsimp only at h
      split at h
      · next tail hdropped =>
        split at h
        · cases h
        · next hnonempty =>
          cases h
          refine ⟨⟨by simpa using hnonempty, fun c => isBrace_of_mem_takeWhile⟩, ?_⟩
          have hrest := List.takeWhile_append_dropWhile (p := fun c => !isBrace c) (l := rest)
          rw [hdropped] at hrest
          simp only [source, List.cons_append, List.append_assoc, List.nil_append, hrest]
      · cases h
    · cases h
  · rintro ⟨⟨hnonempty, hplain⟩, rfl⟩
    have hpos : ∀ c ∈ inner, (!isBrace c) = true := by simpa using hplain
    have htaken : ('\x7d' :: '\x7d' :: after).takeWhile (fun c => !isBrace c) = [] := rfl
    have hdropped : ('\x7d' :: '\x7d' :: after).dropWhile (fun c => !isBrace c) =
      '\x7d' :: '\x7d' :: after := rfl
    simp only [source, List.cons_append, List.append_assoc, List.nil_append, placeholder?_cons_cons,
      List.takeWhile_append_of_pos hpos, List.dropWhile_append_of_pos hpos, htaken, hdropped,
      List.append_nil, List.isEmpty_iff, if_neg hnonempty]
    rfl

/-! ### Pieces -/

theorem pieces_nil : pieces [] = [] := by
  rw [pieces]
  rfl

theorem pieces_of_placeholder? {cs inner after : List Char}
    (h : placeholder? cs = some (inner, after)) :
    pieces cs = .placeholder inner :: pieces after := by
  rw [pieces]
  split
  · next hfound =>
    rw [h] at hfound
    cases hfound
    rfl
  · next hnone =>
    rw [h] at hnone
    cases hnone

theorem pieces_of_literal {c : Char} {rest : List Char} (h : placeholder? (c :: rest) = none) :
    pieces (c :: rest) = .literal c :: pieces rest := by
  rw [pieces]
  split
  · next hfound =>
    rw [h] at hfound
    cases hfound
  · rfl

namespace Piece

/-- The part of a template that a piece stands for. -/
def source : Piece → List Char
  | literal c => [c]
  | placeholder inner => Template.source inner

/-- What a piece becomes, where `text?` gives the values of names. -/
def shown (text? : String → Option String) : Piece → List Char
  | literal c => [c]
  | placeholder inner => ((text? (name inner)).map String.toList).getD (Template.source inner)

theorem toList_render (text? : String → Option String) (piece : Piece) :
    (piece.render text?).toList = piece.shown text? := by
  cases piece with
  | literal c => simp [render, shown]
  | placeholder inner =>
    simp only [render, shown]
    cases text? (name inner) with
    | some text => rfl
    | none => simp [Template.source]

end Piece

theorem flatMap_source_pieces (cs : List Char) : (pieces cs).flatMap Piece.source = cs := by
  fun_induction pieces cs with
  | case1 cs inner after hfound ih =>
    rw [List.flatMap_cons, ih, (placeholder?_eq_some_iff.1 hfound).2]
    rfl
  | case2 => rfl
  | case3 c rest hnone ih =>
    rw [List.flatMap_cons, ih]
    rfl

theorem toList_foldl_append {α : Type} (text : α → String) (items : List α) (start : String) :
    (items.foldl (fun sofar item => sofar ++ text item) start).toList =
      start.toList ++ items.flatMap fun item => (text item).toList := by
  induction items generalizing start with
  | nil => simp
  | cons item items ih => simp [ih]

variable {text? : String → Option String}

theorem toList_render (template : String) :
    (render text? template).toList = (pieces template.toList).flatMap (Piece.shown text?) := by
  rw [render, toList_foldl_append]
  simp only [Piece.toList_render]
  rfl

/-! ### The scan -/

/-- One scan of a template from left to right. Where a placeholder begins, its value is written, or
itself if its name has no value, and the scan goes on behind it. Everywhere else a character is
copied. -/
inductive Scans (text? : String → Option String) : List Char → List Char → Prop
  | finished : Scans text? [] []
  | replaced {inner after out : List Char} {text : String} (placeholder : IsInner inner)
      (value : text? (name inner) = some text) (later : Scans text? after out) :
      Scans text? (source inner ++ after) (text.toList ++ out)
  | kept {inner after out : List Char} (placeholder : IsInner inner)
    (valueless : text? (name inner) = none)
      (later : Scans text? after out) : Scans text? (source inner ++ after) (source inner ++ out)
  | copied {c : Char} {rest out : List Char} (literal : ∀ inner after, IsInner inner →
    c :: rest ≠ source inner ++ after)
      (later : Scans text? rest out) : Scans text? (c :: rest) (c :: out)

theorem placeholder?_eq_none_iff {cs : List Char} :
    placeholder? cs = none ↔ ∀ inner after, IsInner inner → cs ≠ source inner ++ after := by
  simp only [Option.eq_none_iff_forall_ne_some, Prod.forall, ne_eq,
    placeholder?_eq_some_iff, not_and]

theorem scans_pieces (cs : List Char) :
    Scans text? cs ((pieces cs).flatMap (Piece.shown text?)) := by
  fun_induction pieces cs with
  | case1 cs inner after hfound ih =>
    obtain ⟨hinner, rfl⟩ := placeholder?_eq_some_iff.1 hfound
    rw [List.flatMap_cons, Piece.shown]
    cases hvalue : text? (name inner) with
    | some text => exact .replaced hinner hvalue ih
    | none => exact .kept hinner hvalue ih
  | case2 => exact .finished
  | case3 c rest hnone ih => exact .copied (placeholder?_eq_none_iff.1 hnone) ih

theorem scans_iff {cs out : List Char} :
    Scans text? cs out ↔ out = (pieces cs).flatMap (Piece.shown text?) := by
  constructor
  · intro h
    induction h with
    | finished => rw [pieces_nil]; rfl
    | replaced hinner hvalue later ih =>
      rw [pieces_of_placeholder? (placeholder?_eq_some_iff.2 ⟨hinner, rfl⟩), List.flatMap_cons,
        Piece.shown, hvalue, ← ih]
      rfl
    | kept hinner hvalue later ih =>
      rw [pieces_of_placeholder? (placeholder?_eq_some_iff.2 ⟨hinner, rfl⟩), List.flatMap_cons,
        Piece.shown, hvalue, ← ih]
      rfl
    | copied hliteral later ih =>
      rw [pieces_of_literal (placeholder?_eq_none_iff.2 hliteral), List.flatMap_cons, ← ih]
      rfl
  · rintro rfl
    exact scans_pieces cs

/-! ### The replacement of all matches -/

/-- What stands for a match of the pattern of placeholders. -/
def Match.value (text? : String → Option String) (m : Match) : List Char :=
  ((text? (String.ofList (m.mark.getD []))).map String.toList).getD m.taken

theorem pieces_of_search?_none {cs : List Char} (h : placeholderPattern.search? cs = none) :
    pieces cs = cs.map .literal := by
  induction cs with
  | nil => exact pieces_nil
  | cons c rest ih =>
    rw [Pattern.search?, placeholderPattern_firstMatch?] at h
    cases hfound : placeholder? (c :: rest) with
    | some found =>
      rw [hfound] at h
      cases h
    | none =>
      rw [hfound] at h
      rw [pieces_of_literal hfound, ih (by simpa using h)]
      rfl

theorem pieces_of_search?_some {cs front : List Char} {m : Match}
    (h : placeholderPattern.search? cs = some (front, m)) :
    ∃ inner, m = ⟨source inner, some (name inner).toList, m.rest⟩ ∧
      pieces cs = front.map .literal ++ .placeholder inner :: pieces m.rest := by
  induction cs generalizing front with
  | nil => cases h
  | cons c rest ih =>
    rw [Pattern.search?, placeholderPattern_firstMatch?] at h
    cases hfound : placeholder? (c :: rest) with
    | some found =>
      rw [hfound] at h
      cases h
      exact ⟨found.1, rfl, pieces_of_placeholder? hfound⟩
    | none =>
      rw [hfound] at h
      simp only [Option.map_none] at h
      obtain ⟨⟨front, m⟩, hlater, heq⟩ := Option.map_eq_some_iff.1 h
      cases heq
      obtain ⟨inner, hm, hpieces⟩ := ih hlater
      exact ⟨inner, hm, by rw [pieces_of_literal hfound, hpieces]; rfl⟩

theorem flatMap_shown_literals (cs : List Char) :
    (cs.map Piece.literal).flatMap (Piece.shown text?) = cs := by
  rw [List.flatMap_map]
  exact List.flatMap_singleton' cs

theorem flatMap_shown_of_search?_some {cs front : List Char} {m : Match}
    (h : placeholderPattern.search? cs = some (front, m)) :
    (pieces cs).flatMap (Piece.shown text?) =
      front ++ m.value text? ++ (pieces m.rest).flatMap (Piece.shown text?) := by
  obtain ⟨inner, hm, hpieces⟩ := pieces_of_search?_some h
  have hvalue : m.value text? = Piece.shown text? (.placeholder inner) := by
    rw [hm, Match.value, Piece.shown, Option.getD_some, String.ofList_toList]
  rw [hpieces, List.flatMap_append, flatMap_shown_literals, List.flatMap_cons, hvalue,
    List.append_assoc]

theorem replaces_pieces (cs : List Char) :
    placeholderPattern.Replaces (Match.value text?) cs
      ((pieces cs).flatMap (Piece.shown text?)) := by
  induction hlength : (pieces cs).length using Nat.strong_induction_on generalizing cs with
  | h length ih =>
    cases hfound : placeholderPattern.search? cs with
    | none =>
      rw [pieces_of_search?_none hfound, flatMap_shown_literals]
      exact .unmatched hfound
    | some found =>
      obtain ⟨inner, -, hpieces⟩ := pieces_of_search?_some hfound
      have hshorter : (pieces found.2.rest).length < length := by
        rw [← hlength, hpieces, List.length_append, List.length_cons]
        omega
      rw [flatMap_shown_of_search?_some hfound]
      exact .matched hfound (ih _ hshorter _ rfl)

theorem replaces_iff {cs out : List Char} :
    placeholderPattern.Replaces (Match.value text?) cs out ↔
    out = (pieces cs).flatMap (Piece.shown text?) := by
  constructor
  · intro h
    induction h with
    | unmatched hnone => rw [pieces_of_search?_none hnone, flatMap_shown_literals]
    | matched hfound later ih => rw [flatMap_shown_of_search?_some hfound, ih]
  · rintro rfl
    exact replaces_pieces cs

/-- A rendered template is the template with some of its pieces changed, and which text the pieces
are of does not depend on the lead or the payload. It is what one scan from left to right yields,
and nothing else is. Replacing all matches of the pattern of placeholders by the values of what they
mark, or by themselves, yields the same. -/
theorem render_onePass (template : String) :
    (pieces template.toList).flatMap Piece.source = template.toList ∧
    ∀ (lead : Option Lead) (payload : Json),
      let text? := RecordView.text? ⟨lead, payload⟩
      (render text? template).toList = (pieces template.toList).flatMap (Piece.shown text?) ∧
      ∀ out,
        (Scans text? template.toList out ↔ out = (render text? template).toList) ∧
        (placeholderPattern.Replaces (Match.value text?) template.toList out ↔
          out = (render text? template).toList) := by
  refine ⟨flatMap_source_pieces _, fun lead payload => ⟨toList_render template, fun out => ?_⟩⟩
  rw [toList_render]
  exact ⟨scans_iff, replaces_iff⟩

end LeadAutomation.Template
