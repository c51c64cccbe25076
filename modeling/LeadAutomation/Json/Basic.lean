import LeadAutomation.Text
import LeadAutomation.Binary64.Basic

/-!
# JSON values

The free-form data that leads, events and definitions carry. A number keeps its kind: an integer of
the 64-bit ranges stays exact, anything else is a double-precision number.

An object is the list of its members. In text a key may be repeated and members stand in any order;
the value that a text denotes is its `canonical` form, where members stand in the order of their
keys and the last of several members with one key counts. All objects that the library stores are
canonical.
-/

namespace LeadAutomation

/-- A JSON number: an integer from `-2 ^ 63` to `2 ^ 64 - 1`, or a double-precision number. -/
inductive Json.Number where
  | int (n : Int)
  | float (x : Binary64)
deriving DecidableEq

/-- A JSON value; the members of an object are listed as they stand. -/
inductive Json where
  | null
  | bool (b : Bool)
  | num (n : Json.Number)
  | str (s : String)
  | arr (items : List Json)
  | obj (members : List (String × Json))

namespace Json

instance : Inhabited Json := ⟨.null⟩

namespace Number

/-- The double-precision number closest to a JSON number. -/
def toBinary64 : Number → Binary64
  | .int n => .ofInt n
  | .float x => x

end Number

abbrev Members := List (String × Json)

def int (n : Int) : Json := .num (.int n)

def float (x : Binary64) : Json := .num (.float x)

/-- A value or, where there is none, `null`. -/
def orNull {α : Type} (encode : α → Json) : Option α → Json
  | some a => encode a
  | none => .null

/-- The member of a key, left out where there is no value. -/
def optional {α : Type} (key : String) (encode : α → Json) : Option α → Members
  | some a => [(key, encode a)]
  | none => []

def texts (items : List String) : Json := .arr (items.map .str)

/-- The value of a key in an object; anything but an object has none. -/
def get? (key : String) : Json → Option Json
  | .obj members => members.lookup key
  | _ => none

def text? : Json → Option String
  | .str s => some s
  | _ => none

def members? : Json → Option Members
  | .obj members => some members
  | _ => none

/-- Puts a member among members sorted by key, over any with its key. -/
def insertMember (key : String) (value : Json) : Members → Members
  | [] => [(key, value)]
  | (k, v) :: rest =>
    if key < k then (key, value) :: (k, v) :: rest
    else if key = k then (key, value) :: rest
    else (k, v) :: insertMember key value rest

/-- Members in the order of their keys, the last of several with one key. -/
def sortMembers (members : Members) : Members :=
  members.foldl (fun sorted (key, value) => insertMember key value sorted) []

mutual

/-- The value that a JSON text denotes: the members of every object sorted by key, later ones over
earlier. -/
def canonical : Json → Json
  | .arr items => .arr (canonicalItems items)
  | .obj members => .obj (sortMembers (canonicalMembers members))
  | .null => .null
  | .bool b => .bool b
  | .num n => .num n
  | .str s => .str s

def canonicalItems : List Json → List Json
  | [] => []
  | item :: rest => canonical item :: canonicalItems rest

def canonicalMembers : Members → Members
  | [] => []
  | (key, value) :: rest => (key, canonical value) :: canonicalMembers rest

end

mutual

/-- A value with a function applied to each string in it; keys stay. -/
def mapText (f : String → String) : Json → Json
  | .str s => .str (f s)
  | .arr items => .arr (mapTextItems f items)
  | .obj members => .obj (mapTextMembers f members)
  | .null => .null
  | .bool b => .bool b
  | .num n => .num n

def mapTextItems (f : String → String) : List Json → List Json
  | [] => []
  | item :: rest => mapText f item :: mapTextItems f rest

def mapTextMembers (f : String → String) : Members → Members
  | [] => []
  | (key, value) :: rest => (key, mapText f value) :: mapTextMembers f rest

end

/-- Follows keys through nested objects. -/
def walk? (json : Json) (keys : List String) : Option Json :=
  keys.foldlM (fun value key => value.get? key) json

/-- A member by its whole name, else by the name read as a path of keys with dots between. -/
def path? (json : Json) (name : String) : Option Json :=
  match json.get? name with
  | some value => some value
  | none => json.walk? (Text.split '.' name)

mutual

/-- Structural equality of values. -/
def decEq : (x y : Json) → Decidable (x = y)
  | .null, .null => .isTrue rfl
  | .bool a, .bool b =>
    if h : a = b then .isTrue (h ▸ rfl) else .isFalse fun heq => h (Json.bool.inj heq)
  | .num a, .num b =>
    if h : a = b then .isTrue (h ▸ rfl) else .isFalse fun heq => h (Json.num.inj heq)
  | .str a, .str b =>
    if h : a = b then .isTrue (h ▸ rfl) else .isFalse fun heq => h (Json.str.inj heq)
  | .arr a, .arr b =>
    match decEqItems a b with
    | .isTrue h => .isTrue (h ▸ rfl)
    | .isFalse h => .isFalse fun heq => h (Json.arr.inj heq)
  | .obj a, .obj b =>
    match decEqMembers a b with
    | .isTrue h => .isTrue (h ▸ rfl)
    | .isFalse h => .isFalse fun heq => h (Json.obj.inj heq)
  | .null, .bool _ | .null, .num _ | .null, .str _ | .null, .arr _ | .null, .obj _ => .isFalse nofun
  | .bool _, .null | .bool _, .num _ | .bool _, .str _ | .bool _, .arr _ | .bool _, .obj _ =>
    .isFalse nofun
  | .num _, .null | .num _, .bool _ | .num _, .str _ | .num _, .arr _ | .num _, .obj _ =>
    .isFalse nofun
  | .str _, .null | .str _, .bool _ | .str _, .num _ | .str _, .arr _ | .str _, .obj _ =>
    .isFalse nofun
  | .arr _, .null | .arr _, .bool _ | .arr _, .num _ | .arr _, .str _ | .arr _, .obj _ =>
    .isFalse nofun
  | .obj _, .null | .obj _, .bool _ | .obj _, .num _ | .obj _, .str _ | .obj _, .arr _ =>
    .isFalse nofun

def decEqItems : (xs ys : List Json) → Decidable (xs = ys)
  | [], [] => .isTrue rfl
  | [], _ :: _ => .isFalse nofun
  | _ :: _, [] => .isFalse nofun
  | x :: xs, y :: ys =>
    match decEq x y, decEqItems xs ys with
    | .isTrue hx, .isTrue hxs => .isTrue (hx ▸ hxs ▸ rfl)
    | .isFalse hx, _ => .isFalse fun heq => hx (List.cons.inj heq).1
    | _, .isFalse hxs => .isFalse fun heq => hxs (List.cons.inj heq).2

def decEqMembers : (xs ys : Members) → Decidable (xs = ys)
  | [], [] => .isTrue rfl
  | [], _ :: _ => .isFalse nofun
  | _ :: _, [] => .isFalse nofun
  | (k, x) :: xs, (l, y) :: ys =>
    if hk : k = l then
      match decEq x y, decEqMembers xs ys with
      | .isTrue hx, .isTrue hxs => .isTrue (hk ▸ hx ▸ hxs ▸ rfl)
      | .isFalse hx, _ => .isFalse fun heq => hx (Prod.mk.inj (List.cons.inj heq).1).2
      | _, .isFalse hxs => .isFalse fun heq => hxs (List.cons.inj heq).2
    else .isFalse fun heq => hk (Prod.mk.inj (List.cons.inj heq).1).1

end

instance : DecidableEq Json := decEq

end Json

end LeadAutomation
