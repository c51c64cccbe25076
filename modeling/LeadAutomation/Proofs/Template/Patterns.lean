import LeadAutomation.Template
import Mathlib.Data.List.DropRight

/-!
# Placeholders as a pattern

A placeholder can be written as a pattern that a backtracking matcher looks for: two opening braces,
blanks, a name without braces, blanks, two closing braces. The blanks in front take as much as they
can, the name as little as it can, and the marked part of a match is the name. What such a matcher
prefers is not obvious, as blanks are characters of a name, too.

`placeholderPattern_firstMatch?` says what it comes to: the pattern matches where `placeholder?`
finds a placeholder, and it marks the text between the braces without the blanks around it, or the
last blank where there is nothing else.
-/

namespace LeadAutomation.Template

/-- Patterns for text. -/
inductive Pattern where
  /-- One character. -/
  | one (admits : Char → Bool)
  /-- Any number of characters, the more the better. -/
  | many (admits : Char → Bool)
  /-- At least one character, the fewer the better. -/
  | few (admits : Char → Bool)
  /-- One pattern and then another. -/
  | seq (first second : Pattern)
  /-- A pattern of which it is remembered what it matched. -/
  | marked (pattern : Pattern)

/-- A match of a pattern at the front of a text. -/
structure Match where
  taken : List Char
  /-- What the marked part of the pattern matched. -/
  mark : Option (List Char)
  rest : List Char

namespace Match

/-- A match and another one behind it. -/
def append (first second : Match) : Match :=
  ⟨first.taken ++ second.taken, first.mark.or second.mark, second.rest⟩

def cons (c : Char) (m : Match) : Match := { m with taken := c :: m.taken }

/-- A match with a character more in front, in what is taken and in what is marked. -/
def consMarked (c : Char) (m : Match) : Match :=
  { m with taken := c :: m.taken, mark := m.mark.map (c :: ·) }

end Match

namespace Pattern

/-- The ways to take characters from the front of a text, the longest first. -/
def longestFirst (admits : Char → Bool) : List Char → List Match
  | [] => [⟨[], none, []⟩]
  | c :: rest =>
    (if admits c then (longestFirst admits rest).map (Match.cons c) else []) ++
      [⟨[], none, c :: rest⟩]

/-- The ways to take at least one character from the front of a text, the shortest first. -/
def shortestFirst (admits : Char → Bool) : List Char → List Match
  | [] => []
  | c :: rest =>
    if admits c then ⟨[c], none, rest⟩ :: (shortestFirst admits rest).map (Match.cons c) else []

/-- The ways to match a pattern at the front of a text, the best first. -/
def ways : Pattern → List Char → List Match
  | one _, [] => []
  | one admits, c :: rest => if admits c then [⟨[c], none, rest⟩] else []
  | many admits, cs => longestFirst admits cs
  | few admits, cs => shortestFirst admits cs
  | seq first second, cs => (first.ways cs).flatMap fun m => (second.ways m.rest).map m.append
  | marked pattern, cs => (pattern.ways cs).map fun m => { m with mark := some m.taken }

/-- The match of a pattern at the front of a text, if it matches there. -/
def firstMatch? (pattern : Pattern) (cs : List Char) : Option Match := (pattern.ways cs).head?

/-- The first place of a text at which a pattern matches: what stands in front of it, and the
match. -/
def search? (pattern : Pattern) : List Char → Option (List Char × Match)
  | [] => (pattern.firstMatch? []).map fun m => ([], m)
  | c :: rest =>
    match pattern.firstMatch? (c :: rest) with
    | some m => some ([], m)
    | none => (pattern.search? rest).map fun (front, m) => (c :: front, m)

/-- A text with a value for each match of a pattern. The search goes on behind a match, and what
stands for it is not searched. -/
inductive Replaces (pattern : Pattern) (value : Match → List Char) : List Char → List Char → Prop
  | unmatched {cs : List Char} (unmatched : pattern.search? cs = none) :
    Replaces pattern value cs cs
  | matched {cs front out : List Char} {m : Match} (matched : pattern.search? cs = some (front, m))
      (later : Replaces pattern value m.rest out) :
        Replaces pattern value cs (front ++ value m ++ out)

/-! ### The first way -/

section

variable {admits : Char → Bool} {first next : Pattern} {c : Char} {cs rest : List Char}

theorem firstMatch?_seq : (seq first next).firstMatch? cs =
    (first.ways cs).findSome? fun m => (next.firstMatch? m.rest).map m.append := by
  simp only [firstMatch?, ways, List.head?_flatMap, List.head?_map]

theorem findSome?_map_cons {firsts : List Match} :
    ((firsts.map (Match.cons c)).findSome? fun m => (next.firstMatch? m.rest).map m.append) =
      (firsts.findSome? fun m => (next.firstMatch? m.rest).map m.append).map (Match.cons c) := by
  rw [List.findSome?_map, List.map_findSome?]
  simp only [Function.comp_def, Option.map_map]
  rfl

theorem map_append_nothing {found : Option Match} :
    found.map (Match.append ⟨[], none, cs⟩) = found := by
  cases found <;> rfl

@[simp]
theorem firstMatch?_one_nil : (seq (one admits) next).firstMatch? [] = none := by
  rw [firstMatch?_seq, ways]
  rfl

theorem firstMatch?_one_cons : (seq (one admits) next).firstMatch? (c :: rest) =
    if admits c then (next.firstMatch? rest).map (Match.cons c) else none := by
  rw [firstMatch?_seq, ways]
  split
  · rw [List.findSome?_singleton]
    rfl
  · rfl

@[simp]
theorem firstMatch?_many_nil : (seq (many admits) next).firstMatch? [] = next.firstMatch? [] := by
  rw [firstMatch?_seq, ways, longestFirst, List.findSome?_singleton, map_append_nothing]

theorem firstMatch?_many_of_not (h : admits c = false) :
    (seq (many admits) next).firstMatch? (c :: rest) = next.firstMatch? (c :: rest) := by
  rw [firstMatch?_seq, ways, longestFirst, h]
  exact (List.findSome?_singleton ..).trans map_append_nothing

theorem firstMatch?_many_cons (h : admits c = true) :
    (seq (many admits) next).firstMatch? (c :: rest) =
    (((seq (many admits) next).firstMatch? rest).map (Match.cons c)).or
      (next.firstMatch? (c :: rest)) := by
  simp only [firstMatch?_seq, ways, longestFirst, if_pos h]
  rw [List.findSome?_append, findSome?_map_cons, List.findSome?_singleton, map_append_nothing]

@[simp]
theorem firstMatch?_few_nil : (seq (marked (few admits)) next).firstMatch? [] = none := by
  rw [firstMatch?_seq, ways, ways]
  rfl

theorem firstMatch?_few_of_not (h : admits c = false) :
    (seq (marked (few admits)) next).firstMatch? (c :: rest) = none := by
  rw [firstMatch?_seq, ways, ways, shortestFirst, h]
  rfl

theorem firstMatch?_few_cons (h : admits c = true) :
    (seq (marked (few admits)) next).firstMatch? (c :: rest) =
    ((next.firstMatch? rest).map fun m => ⟨c :: m.taken, some [c], m.rest⟩).or
      (((seq (marked (few admits)) next).firstMatch? rest).map (Match.consMarked c)) := by
  simp only [firstMatch?_seq, ways, shortestFirst, if_pos h, List.map_cons,
    List.findSome?_cons, List.map_map]
  cases hnext : next.firstMatch? rest with
  | some m => rfl
  | none =>
    simp only [Option.map_none, Option.none_or, List.findSome?_map, List.map_findSome?,
      Function.comp_def, Option.map_map]
    rfl

end

end Pattern

/-! ### The pattern of placeholders -/

open Pattern Text

/-- Two closing braces, perhaps with blanks in front of them. -/
def endingPattern : Pattern := seq (many isBlank) (seq (one (· = '\x7d')) (one (· = '\x7d')))

/-- The name in a placeholder and what follows it. -/
def namePattern : Pattern := seq (marked (few fun c => !isBrace c)) endingPattern

def placeholderPattern : Pattern :=
  seq (one (· = '\x7b')) (seq (one (· = '\x7b')) (seq (many isBlank) namePattern))

/-- What follows two closing braces at the front of a text. -/
def closed? : List Char → Option (List Char)
  | '\x7d' :: '\x7d' :: after => some after
  | _ => none

theorem isBlank_of_isBrace {c : Char} (h : isBrace c = true) : isBlank c = false := by
  obtain rfl | rfl : c = '\x7b' ∨ c = '\x7d' := by simpa [isBrace] using h
  · rfl
  · rfl

theorem isBrace_of_isBlank {c : Char} (h : isBlank c = true) : isBrace c = false := by
  by_contra hbrace
  have hblank := isBlank_of_isBrace (Bool.not_eq_false _ ▸ hbrace)
  rw [h] at hblank
  cases hblank

theorem closed?_cons {c : Char} {rest : List Char} (h : isBrace c = false) :
    closed? (c :: rest) = none := by
  unfold closed?
  split
  · next heq =>
    obtain ⟨rfl, -⟩ := List.cons.inj heq
    cases h
  · rfl

theorem firstMatch?_closing (cs : List Char) :
    (seq (one (· = '\x7d')) (one (· = '\x7d'))).firstMatch? cs =
    (closed? cs).map fun after => ⟨['\x7d', '\x7d'], none, after⟩ := by
  match cs with
  | [] => rfl
  | [c] =>
    rw [firstMatch?_one_cons]
    cases decide (c = '\x7d') <;> simp [firstMatch?, ways, closed?]
  | c :: d :: after =>
    rw [firstMatch?_one_cons]
    by_cases hc : c = '\x7d'
    · by_cases hd : d = '\x7d'
      · subst hc hd
        rfl
      · simp [firstMatch?, ways, closed?, hd]
    · simp [closed?, hc]

theorem firstMatch?_ending (cs : List Char) : endingPattern.firstMatch? cs =
    (closed? (cs.dropWhile isBlank)).map fun after =>
      ⟨cs.takeWhile isBlank ++ ['\x7d', '\x7d'], none, after⟩ := by
  unfold endingPattern
  induction cs with
  | nil => rw [firstMatch?_many_nil, firstMatch?_closing]; rfl
  | cons c rest ih =>
    cases hblank : isBlank c with
    | false =>
      have hneg : ¬ isBlank c = true := Bool.eq_false_iff.1 hblank
      rw [firstMatch?_many_of_not hblank, firstMatch?_closing, List.dropWhile_cons_of_neg hneg,
        List.takeWhile_cons_of_neg hneg]
      rfl
    | true =>
      rw [firstMatch?_many_cons hblank, ih, firstMatch?_closing,
        closed?_cons (isBrace_of_isBlank hblank), Option.map_none, Option.or_none, Option.map_map,
        List.dropWhile_cons_of_pos hblank, List.takeWhile_cons_of_pos hblank]
      rfl

section

variable {inside behind : List Char}

theorem rdropWhile_cons {p : Char → Bool} {c : Char} {cs : List Char}
    (h : p c = false ∨ cs.all p = false) :
    (c :: cs).rdropWhile p = c :: cs.rdropWhile p := by
  unfold List.rdropWhile
  rw [List.reverse_cons, List.dropWhile_append]
  cases hdropped : cs.reverse.dropWhile p with
  | nil =>
    have hall : cs.all p = true := by
      rw [List.dropWhile_eq_nil_iff] at hdropped
      exact List.all_eq_true.2 fun d hd => hdropped d (List.mem_reverse.2 hd)
    have hc : ¬ p c = true := by simpa [hall] using h
    rw [List.dropWhile_cons_of_neg hc]
    rfl
  | cons d rest => simp

theorem rdropWhile_eq_nil {p : Char → Bool} {cs : List Char} (h : cs.all p = true) :
    cs.rdropWhile p = [] :=
  List.rdropWhile_eq_nil_iff.2 (List.all_eq_true.1 h)

theorem dropWhile_isBlank_behind (hbehind : ∀ c, behind.head? = some c → isBrace c = true) :
    behind.dropWhile isBlank = behind ∧ behind.takeWhile isBlank = [] := by
  cases behind with
  | nil => exact ⟨rfl, rfl⟩
  | cons c rest =>
    have hc : ¬ isBlank c = true := Bool.eq_false_iff.1 (isBlank_of_isBrace (hbehind c rfl))
    exact ⟨List.dropWhile_cons_of_neg hc, List.takeWhile_cons_of_neg hc⟩

/-- The ending follows a text without braces if there is nothing in that text but blanks. -/
theorem firstMatch?_ending_append (hinside : ∀ c ∈ inside, isBrace c = false)
    (hbehind : ∀ c, behind.head? = some c → isBrace c = true) :
    endingPattern.firstMatch? (inside ++ behind) =
      if inside.all isBlank then (closed? behind).map fun after =>
        ⟨inside ++ ['\x7d', '\x7d'], none, after⟩ else none := by
  obtain ⟨hdropped, htaken⟩ := dropWhile_isBlank_behind hbehind
  rw [firstMatch?_ending]
  split
  · next hall =>
    rw [List.dropWhile_append_of_pos (List.all_eq_true.1 hall),
      List.takeWhile_append_of_pos (List.all_eq_true.1 hall), hdropped, htaken, List.append_nil]
  · next hall =>
    cases hrest : inside.dropWhile isBlank with
    | nil => exact absurd (List.all_eq_true.2 (List.dropWhile_eq_nil_iff.1 hrest)) hall
    | cons d rest =>
      have hd : d ∈ inside := List.dropWhile_subset _ (hrest ▸ List.mem_cons_self)
      rw [List.dropWhile_append, hrest]
      simp only [List.isEmpty_cons, Bool.false_eq_true, if_false, List.cons_append,
        closed?_cons (hinside d hd), Option.map_none]

theorem firstMatch?_name (hinside : ∀ c ∈ inside, isBrace c = false)
    (hbehind : ∀ c, behind.head? = some c → isBrace c = true) :
    namePattern.firstMatch? (inside ++ behind) =
      inside.head?.bind fun c => (closed? behind).map fun after =>
        ⟨inside ++ ['\x7d', '\x7d'], some (c :: inside.tail.rdropWhile isBlank), after⟩ := by
  unfold namePattern
  induction inside with
  | nil =>
    cases behind with
    | nil => exact firstMatch?_few_nil
    | cons c rest => exact firstMatch?_few_of_not (by rw [hbehind c rfl]; rfl)
  | cons c rest ih =>
    obtain ⟨hc, hrest⟩ := List.forall_mem_cons.1 hinside
    rw [List.cons_append, firstMatch?_few_cons (by rw [hc]; rfl), ih hrest,
      firstMatch?_ending_append hrest hbehind]
    cases hall : rest.all isBlank with
    | true =>
      rw [if_pos rfl, List.tail_cons, rdropWhile_eq_nil hall]
      cases closed? behind <;> cases rest <;> rfl
    | false =>
      cases rest with
      | nil => cases hall
      | cons d rest =>
        have hblank : isBlank d = false ∨ rest.all isBlank = false := by
          rwa [List.all_cons, Bool.and_eq_false_iff] at hall
        simp only [List.tail_cons, rdropWhile_cons hblank]
        cases closed? behind <;> rfl

theorem trimChars_eq (cs : List Char) : trimChars cs = (cs.dropWhile isBlank).rdropWhile isBlank :=
  rfl

theorem name_cons_of_isBlank {c : Char} {cs : List Char} (hc : isBlank c = true) (hcs : cs ≠ []) :
    name (c :: cs) = name cs := by
  unfold name
  rw [List.all_cons, hc, Bool.true_and]
  split
  · obtain ⟨n, hn⟩ := Nat.exists_eq_succ_of_ne_zero (mt List.length_eq_zero_iff.1 hcs)
    rw [List.length_cons, hn]
    rfl
  · rw [trimChars_eq, trimChars_eq, List.dropWhile_cons_of_pos hc]

theorem toList_name_cons {c : Char} {cs : List Char} (h : isBlank c = false ∨ cs = []) :
    (name (c :: cs)).toList = c :: cs.rdropWhile isBlank := by
  unfold name
  split
  · next hall =>
    obtain ⟨hc, -⟩ := Bool.and_eq_true_iff.1 (List.all_cons ▸ hall)
    obtain rfl : cs = [] := h.resolve_left (Bool.not_eq_false _ ▸ hc)
    exact String.toList_ofList
  · next hall =>
    have hc : isBlank c = false := by
      obtain hc | rfl := h
      · exact hc
      · simpa using hall
    rw [String.toList_ofList, trimChars_eq, List.dropWhile_cons_of_neg (Bool.eq_false_iff.1 hc),
      rdropWhile_cons (.inl hc)]

/-- Blanks around a name are not marked, and where there are only blanks, the last of them is. -/
theorem firstMatch?_inside (hinside : ∀ c ∈ inside, isBrace c = false)
    (hbehind : ∀ c, behind.head? = some c → isBrace c = true) :
    (seq (many isBlank) namePattern).firstMatch? (inside ++ behind) =
      if inside.isEmpty then none
      else (closed? behind).map fun after =>
        ⟨inside ++ ['\x7d', '\x7d'], some (name inside).toList, after⟩ := by
  induction inside with
  | nil =>
    have hnone := firstMatch?_name hinside hbehind
    cases behind with
    | nil => rwa [List.nil_append, firstMatch?_many_nil]
    | cons c rest =>
      rwa [List.nil_append, firstMatch?_many_of_not (isBlank_of_isBrace (hbehind c rfl))]
  | cons c rest ih =>
    have hname := firstMatch?_name hinside hbehind
    cases hc : isBlank c with
    | false =>
      rw [List.cons_append, firstMatch?_many_of_not hc, ← List.cons_append, hname,
        toList_name_cons (.inl hc)]
      rfl
    | true =>
      rw [List.cons_append, firstMatch?_many_cons hc, ih (List.forall_mem_cons.1 hinside).2,
        ← List.cons_append, hname]
      cases rest with
      | nil =>
        rw [toList_name_cons (.inr rfl)]
        rfl
      | cons d rest =>
        rw [name_cons_of_isBlank hc (List.cons_ne_nil d rest)]
        cases closed? behind <;> rfl

end

theorem placeholder?_cons_cons (rest : List Char) : placeholder? ('\x7b' :: '\x7b' :: rest) =
    if (rest.takeWhile fun c => !isBrace c).isEmpty then none
    else (closed? (rest.dropWhile fun c => !isBrace c)).map fun after =>
      (rest.takeWhile fun c => !isBrace c, after) := by
  rw [placeholder?]
  generalize rest.dropWhile (fun c => !isBrace c) = behind
  split
  · rfl
  · next hopen =>
    have hclosed : closed? behind = none := by
      unfold closed?
      split
      · next after => exact absurd rfl (hopen after)
      · rfl
    rw [hclosed, Option.map_none, ite_self]

theorem placeholder?_eq_none {c : Char} {rest : List Char}
    (h : ∀ after, c :: rest ≠ '\x7b' :: '\x7b' :: after) :
    placeholder? (c :: rest) = none := by
  unfold placeholder?
  split
  · next after heq => exact absurd heq (h after)
  · rfl

theorem isBrace_of_head?_dropWhile {cs : List Char} {c : Char}
    (h : (cs.dropWhile fun c => !isBrace c).head? = some c) :
    isBrace c = true := by
  have hnot := List.head?_dropWhile_not (fun c => !isBrace c) cs
  rw [h] at hnot
  simpa using hnot

theorem isBrace_of_mem_takeWhile {cs : List Char} {c : Char}
    (h : c ∈ cs.takeWhile fun c => !isBrace c) :
    isBrace c = false := by
  simpa using List.mem_takeWhile_imp h

/-- The pattern matches just where a placeholder begins, and marks its name. -/
theorem placeholderPattern_firstMatch? (cs : List Char) :
    placeholderPattern.firstMatch? cs = (placeholder? cs).map fun (inner, after) =>
      ⟨'\x7b' :: '\x7b' :: inner ++ ['\x7d', '\x7d'], some (name inner).toList, after⟩ := by
  unfold placeholderPattern
  match cs with
  | [] =>
    rw [firstMatch?_one_nil]
    rfl
  | [c] =>
    rw [firstMatch?_one_cons, firstMatch?_one_nil, Option.map_none, ite_self,
      placeholder?_eq_none fun after => by simp]
    rfl
  | c :: d :: rest =>
    rw [firstMatch?_one_cons, firstMatch?_one_cons]
    by_cases hbraces : c = '\x7b' ∧ d = '\x7b'
    · obtain ⟨rfl, rfl⟩ := hbraces
      have hinside : (seq (many isBlank) namePattern).firstMatch?
          ((rest.takeWhile fun c => !isBrace c) ++ rest.dropWhile fun c => !isBrace c) = _ :=
        firstMatch?_inside (fun c => isBrace_of_mem_takeWhile) fun c => isBrace_of_head?_dropWhile
      rw [List.takeWhile_append_dropWhile] at hinside
      rw [if_pos (by decide), if_pos (by decide), hinside, placeholder?_cons_cons]
      split
      · rfl
      · simp only [Option.map_map]
        rfl
    · rw [placeholder?_eq_none fun after heq => hbraces (by cases heq; exact ⟨rfl, rfl⟩)]
      simp only [decide_eq_true_eq]
      split
      · next hc => rw [if_neg fun hd => hbraces ⟨hc, hd⟩]; rfl
      · rfl

end LeadAutomation.Template
