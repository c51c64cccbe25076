import LeadAutomation.Text

/-!
# Vocabularies

Definitions name things by words from small closed lists: statuses, events, operators, kinds of
action. A vocabulary is a type with a list of its members and a name for each, such that a name
leads back to its member.

Some words are read leniently. There, case and blanks around a word do not matter, and a text that
names nothing is kept as it stands instead of being refused, so that one unknown word does not make
the rest of a definition unreadable. `Word` is the type of such words, and `Word.ofText_text` says
that writing one and reading it again changes nothing.
-/

namespace LeadAutomation

/-- A closed vocabulary, told apart by names. -/
class Named (α : Type) where
  all : List α
  name : α → String
  find_name : ∀ a, all.find? (fun b => name b == name a) = some a

namespace Named

variable {α : Type} [Named α]

/-- The member that bears a name. -/
def ofName? (text : String) : Option α := all.find? fun a => name a == text

def names (α : Type) [Named α] : List String := (all : List α).map name

@[simp]
theorem ofName?_name (a : α) : ofName? (name a) = some a := find_name a

theorem name_injective {a b : α} (h : name a = name b) : a = b := by
  have hb := ofName?_name b
  rw [← h, ofName?_name] at hb
  exact Option.some.inj hb

end Named

/-- A vocabulary whose names are plain: without capitals and without blanks around them. -/
class PlainNamed (α : Type) extends Named α where
  plain : ∀ a, Text.lowerAscii (Text.trim (name a)) = name a

/-- The member that a text names when case and surrounding blanks do not matter. -/
def Named.spoken? {α : Type} [Named α] (text : String) : Option α :=
  Named.ofName? (Text.lowerAscii (Text.trim text))

/-- A word of a vocabulary, or a text that names none of its members. -/
inductive Word (α : Type) [Named α] where
  | known (a : α)
  | other (text : String) (unknown : Named.spoken? (α := α) text = none)

namespace Word

variable {α : Type} [Named α]

/-- The word that a text is. -/
def ofText (text : String) : Word α :=
  match h : Named.spoken? (α := α) text with
  | some a => .known a
  | none => .other text h

/-- The text of a word: the name of a member, any other text as it was given. -/
def text : Word α → String
  | .known a => Named.name a
  | .other text _ => text

def isKnown : Word α → Bool
  | .known _ => true
  | .other .. => false

theorem ofText_of_some {text : String} {a : α} (h : Named.spoken? text = some a) :
    ofText text = .known a := by
  unfold ofText
  split
  · next b hb => rw [h] at hb; cases hb; rfl
  · next hb => rw [h] at hb; cases hb

theorem ofText_of_none {text : String} (h : Named.spoken? (α := α) text = none) :
    ofText text = .other text h := by
  unfold ofText
  split
  · next b hb => rw [h] at hb; cases hb
  · rfl

end Word

@[simp]
theorem Named.spoken?_name {α : Type} [PlainNamed α] (a : α) :
    Named.spoken? (Named.name a) = some a := by
  unfold Named.spoken?
  rw [PlainNamed.plain, Named.ofName?_name]

@[simp]
theorem Word.ofText_text {α : Type} [PlainNamed α] (w : Word α) : ofText w.text = w := by
  cases w with
  | known a => exact ofText_of_some (Named.spoken?_name a)
  | other text unknown => exact ofText_of_none unknown

instance {α : Type} [Named α] [DecidableEq α] : DecidableEq (Word α) := fun v w =>
  match v, w with
  | .known a, .known b =>
    if h : a = b then .isTrue (h ▸ rfl) else .isFalse fun heq => h (Word.known.inj heq)
  | .other s _, .other t _ =>
    if h : s = t then .isTrue (by subst h; rfl) else .isFalse fun heq => h (Word.other.inj heq)
  | .known _, .other .. => .isFalse nofun
  | .other .., .known _ => .isFalse nofun

end LeadAutomation
