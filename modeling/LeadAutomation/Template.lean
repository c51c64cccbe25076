import LeadAutomation.Json.Basic

/-!
# Templates

Messages and payloads may mention names between double braces. `pieces` reads a template from left
to right: where two opening braces are followed by text without braces, at least one character of
it, and two closing braces, that is a placeholder; everywhere else a single character stands for
itself. Values are put in for the placeholders of the template only, never for what looks like a
placeholder in a value.

A placeholder whose name has no value stays as it is.
-/

namespace LeadAutomation.Template

inductive Piece where
  | literal (c : Char)
  /-- What stands between the braces. -/
  | placeholder (inner : List Char)
deriving DecidableEq, Repr

def isBrace (c : Char) : Bool := c = '\x7b' || c = '\x7d'

/-- The text between the braces of a placeholder at the front, and what follows the placeholder. -/
def placeholder? : List Char → Option (List Char × List Char)
  | '\x7b' :: '\x7b' :: rest =>
    let inner := rest.takeWhile fun c => !isBrace c
    match rest.dropWhile fun c => !isBrace c with
    | '\x7d' :: '\x7d' :: after => if inner.isEmpty then none else some (inner, after)
    | _ => none
  | _ => none

theorem length_of_placeholder? {cs inner after : List Char}
    (h : placeholder? cs = some (inner, after)) :
    after.length < cs.length := by
  unfold placeholder? at h
  split at h
  · next rest =>
    dsimp only at h
    split at h
    · next tail hdrop =>
      split at h
      · exact absurd h nofun
      · cases h
        have hle : (rest.dropWhile fun c => !isBrace c).length ≤ rest.length :=
          (List.dropWhile_suffix _).length_le
        rw [hdrop] at hle
        simp only [List.length_cons] at hle ⊢
        omega
    · exact absurd h nofun
  · exact absurd h nofun

def pieces (cs : List Char) : List Piece :=
  match _hfound : placeholder? cs with
  | some (inner, after) => .placeholder inner :: pieces after
  | none =>
    match cs with
    | [] => []
    | c :: rest => .literal c :: pieces rest
termination_by cs.length
decreasing_by
  · exact length_of_placeholder? _hfound
  · simp

/-- The name in a placeholder: the text without blanks around it, or the last blank where there is
nothing else. -/
def name (inner : List Char) : String :=
  if inner.all Text.isBlank then String.ofList (inner.drop (inner.length - 1))
  else String.ofList (Text.trimChars inner)

/-- The text of a piece, where `text?` gives the values of names. -/
def Piece.render (text? : String → Option String) : Piece → String
  | .literal c => c.toString
  | .placeholder inner =>
    match text? (name inner) with
    | some text => text
    | none => "\x7b\x7b" ++ String.ofList inner ++ "\x7d\x7d"

/-- A template with values put in for its placeholders. -/
def render (text? : String → Option String) (template : String) : String :=
  (pieces template.toList).foldl (fun text piece => text ++ piece.render text?) ""

/-- A JSON value with each string in it taken as a template; keys stay. -/
def renderJson (text? : String → Option String) (json : Json) : Json := json.mapText (render text?)

end LeadAutomation.Template
