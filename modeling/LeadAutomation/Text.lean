/-!
# Text

The few operations on text that the rest of the library reads names, numbers and lists with: blanks
and trimming, the ASCII case fold, splitting at a character, and the search for a fragment.

Each is defined on the characters of a string, so that what it does can be said by recursion on a
list; the versions on strings only wrap it.
-/

namespace LeadAutomation

namespace Text

/-- The white space characters of Unicode (property `White_Space`), twenty-five in all. -/
def isBlank (c : Char) : Bool :=
  let n := c.toNat
  (9 ≤ n && n ≤ 13) || n == 0x20 || n == 0x85 || n == 0xA0 || n == 0x1680 ||
    (0x2000 ≤ n && n ≤ 0x200A) || n == 0x2028 || n == 0x2029 || n == 0x202F ||
      n == 0x205F || n == 0x3000

/-- Characters without the blanks at the front. -/
def trimFront (cs : List Char) : List Char := cs.dropWhile isBlank

/-- Characters without the blanks at either end. -/
def trimChars (cs : List Char) : List Char := (trimFront (trimFront cs).reverse).reverse

/-- A string without the blanks at either end. -/
def trim (s : String) : String := String.ofList (trimChars s.toList)

def isBlankText (s : String) : Bool := s.toList.all isBlank

/-- A string with its ASCII capitals made small; every other character stays. -/
def lowerAscii (s : String) : String := String.ofList (s.toList.map Char.toLower)

/-- The pieces between the separators: one more than there are separators, some perhaps empty. -/
def splitChars (separator : Char) : List Char → List (List Char)
  | [] => [[]]
  | c :: rest =>
    match splitChars separator rest with
    | [] => [[c]]
    | piece :: pieces => if c = separator then [] :: piece :: pieces else (c :: piece) :: pieces

/-- The pieces of a string between the separators. -/
def split (separator : Char) (s : String) : List String :=
  (splitChars separator s.toList).map String.ofList

/-- Whether `fragment` stands somewhere in the characters, as a run without gaps. -/
def containsChars (fragment : List Char) : List Char → Bool
  | [] => fragment.isEmpty
  | c :: rest => fragment.isPrefixOf (c :: rest) || containsChars fragment rest

/-- Whether `fragment` stands somewhere in the string. -/
def contains (s fragment : String) : Bool := containsChars fragment.toList s.toList

/-- Texts joined with a separator between neighbours. -/
def join (separator : String) : List String → String
  | [] => ""
  | [s] => s
  | s :: rest => s ++ separator ++ join separator rest

/-- Decimal digits read as a number; `none` if a character is no digit or there is none. -/
def natural? (cs : List Char) : Option Nat :=
  if cs.isEmpty || !cs.all Char.isDigit then none
  else some (cs.foldl (fun n c => 10 * n + (c.toNat - 48)) 0)

/-- A signed decimal integer: an optional sign and at least one digit, nothing else. -/
def integer? : List Char → Option Int
  | '-' :: digits => (natural? digits).map fun n => -(n : Int)
  | '+' :: digits => (natural? digits).map Int.ofNat
  | digits => (natural? digits).map Int.ofNat

theorem splitChars_ne_nil (separator : Char) (cs : List Char) : splitChars separator cs ≠ [] := by
  cases cs with
  | nil => simp [splitChars]
  | cons c rest =>
    simp only [splitChars]
    split
    · simp
    · split <;> simp

/-! ### Trimming twice -/

theorem trimFront_of_head? {cs : List Char} (h : ∀ c, cs.head? = some c → isBlank c = false) :
    trimFront cs = cs := by
  cases cs with
  | nil => rfl
  | cons c rest => rw [trimFront, List.dropWhile_cons_of_neg (by rw [h c rfl]; nofun)]

theorem isBlank_of_head?_trimFront {cs : List Char} {c : Char} (h : (trimFront cs).head? = some c) :
    isBlank c = false := by
  have hnot := List.head?_dropWhile_not isBlank cs
  rw [trimFront] at h
  rwa [h] at hnot

@[simp]
theorem trimChars_trimChars (cs : List Char) : trimChars (trimChars cs) = trimChars cs := by
  have hsuffix : trimFront (trimFront cs).reverse <:+ (trimFront cs).reverse :=
    List.dropWhile_suffix isBlank
  have hprefix : trimChars cs <+: trimFront cs := by
    rw [← List.reverse_reverse (trimFront cs)]
    exact List.reverse_prefix.2 hsuffix
  have hfront : trimFront (trimChars cs) = trimChars cs := by
    apply trimFront_of_head?
    intro c hc
    obtain ⟨rest, hrest⟩ := hprefix
    have hhead : (trimFront cs).head? = some c := by
      rw [← hrest, List.head?_append, hc, Option.some_or]
    exact isBlank_of_head?_trimFront hhead
  have hback : trimFront (trimChars cs).reverse = (trimChars cs).reverse := by
    apply trimFront_of_head?
    intro c hc
    rw [trimChars, List.reverse_reverse] at hc
    exact isBlank_of_head?_trimFront hc
  rw [trimChars.eq_def (trimChars cs), hfront, hback, List.reverse_reverse]

@[simp]
theorem trim_trim (s : String) : trim (trim s) = trim s := by
  simp [trim]

end Text

end LeadAutomation
