import LeadAutomation.Proofs.Timestamp
import LeadAutomation.Settings
import Mathlib.Logic.Function.Basic

/-!
# What is set

The settings are read from named texts, and most of them cannot be refused: a text that is no number
counts as none, and a list of recipients is whatever stands between its commas. So only the two
settings that are words decide whether there are settings at all, `Settings.exists_read`, every
number of 64 bits can be set where one is read, and a text for the default recipients decides on
these alone, `Settings.read_update_defaultRecipients`.
-/

namespace LeadAutomation

namespace Text

theorem natural?_repr (n : Nat) : natural? (toString n).toList = some n := by
  rw [show toString n = String.ofList (Nat.toDigits 10 n) from Nat.repr_eq_ofList_toDigits,
    String.toList_ofList, natural?_of_digits Nat.toDigits_ne_nil fun c =>
      Nat.isDigit_of_mem_toDigits (by decide) (by decide), Nat.ofDigitChars_ten_toDigits]

theorem integer?_repr (n : Int) : integer? (toString n).toList = some n := by
  cases n with
  | ofNat n =>
    have hdigits : (toString (Int.ofNat n)).toList = Nat.toDigits 10 n := by
      rw [show toString (Int.ofNat n) =
        String.ofList (Nat.toDigits 10 n) from Nat.repr_eq_ofList_toDigits, String.toList_ofList]
    have hnatural : natural? (Nat.toDigits 10 n) = some n := by
      rw [← hdigits]
      exact natural?_repr n
    rw [hdigits]
    cases hcs : Nat.toDigits 10 n with
    | nil => exact absurd hcs Nat.toDigits_ne_nil
    | cons c rest =>
      -- A number begins with a digit, so it is not taken for one with a sign.
      have hdigit : c.isDigit = true :=
        Nat.isDigit_of_mem_toDigits (by decide) (by decide) (hcs ▸ List.mem_cons_self : c ∈
          Nat.toDigits 10 n)
      have hminus : c ≠ '-' := by rintro rfl; cases hdigit
      have hplus : c ≠ '+' := by rintro rfl; cases hdigit
      rw [hcs] at hnatural
      unfold integer?
      split
      · next heq => exact absurd (List.cons.inj heq).1 hminus
      · next heq => exact absurd (List.cons.inj heq).1 hplus
      · rw [hnatural]
        rfl
  | negSucc n =>
    have hminus : (toString (Int.negSucc n)).toList = '-' :: (toString (n + 1)).toList := by
      rw [show toString (Int.negSucc n) = "-" ++ toString (n + 1) from rfl]
      simp
    rw [hminus, integer?, natural?_repr]
    rfl

end Text

namespace Settings

theorem signed?_repr (n : Int64) : signed? (toString n.toInt) = some n := by
  have hrange : Int64.minValue.toInt ≤ n.toInt ∧ n.toInt ≤ Int64.maxValue.toInt :=
    ⟨n.minValue_le_toInt, n.toInt_le⟩
  rw [signed?, Text.integer?_repr, Option.filter_some, if_pos (decide_eq_true hrange),
    Option.map_some, Int64.ofInt_toInt]

variable {lookup : String → Option String} {settings : Settings}

/-- Settings that cannot be refused are what they are set to, or their defaults, wherever there are
settings. -/
theorem unrefused_of_read (hread : read lookup = .ok settings) :
    settings.options.defaultRecipients =
      Notification.recipientsOfText ((lookup "AUTOMATION_DEFAULT_RECIPIENTS").getD "") ∧
    settings.maintenance.staleMinutes =
      ((lookup "AUTOMATION_STALE_EXECUTION_MINUTES").bind signed?).getD 60 := by
  unfold read at hread
  simp only [bind, Except.bind] at hread
  split at hread
  · cases hread
  · split at hread
    · cases hread
    · cases hread
      exact ⟨rfl, rfl⟩

theorem defaultRecipients_of_read (hread : read lookup = .ok settings) :
    settings.options.defaultRecipients =
    Notification.recipientsOfText ((lookup "AUTOMATION_DEFAULT_RECIPIENTS").getD "") :=
  (unrefused_of_read hread).1

theorem staleMinutes_of_read (hread : read lookup = .ok settings) :
    settings.maintenance.staleMinutes =
    ((lookup "AUTOMATION_STALE_EXECUTION_MINUTES").bind signed?).getD 60 :=
  (unrefused_of_read hread).2

theorem exists_read (hstorage : lookup "STORAGE_BACKEND" = none)
    (hpolicy : lookup "AUTOMATION_EMPTY_RULE_POLICY" = none) :
    ∃ settings, read lookup = .ok settings := by
  have hbackend : choice "STORAGE_BACKEND" StorageBackend.postgres .memory "postgres" =
    .ok .postgres := by decide +kernel
  have hempty : choice "AUTOMATION_EMPTY_RULE_POLICY" EmptyRulePolicy.matchAll .inert "match_all" =
      .ok .matchAll := by
    decide +kernel
  unfold read
  simp only [hstorage, hpolicy, Option.getD_none]
  rw [hbackend, hempty]
  exact ⟨_, rfl⟩

theorem exists_read_staleMinutes (minutes : Int64) :
    ∃ lookup settings, read lookup = .ok settings ∧
    settings.maintenance.staleMinutes = minutes := by
  let lookup (setting : String) : Option String :=
    if setting = "AUTOMATION_STALE_EXECUTION_MINUTES" then some (toString minutes.toInt) else none
  have hset : lookup "AUTOMATION_STALE_EXECUTION_MINUTES" = some (toString minutes.toInt) :=
    if_pos rfl
  obtain ⟨settings, hread⟩ : ∃ settings, read lookup = .ok settings := exists_read rfl rfl
  refine ⟨lookup, settings, hread, ?_⟩
  rw [staleMinutes_of_read hread, hset, Option.bind_some, signed?_repr, Option.getD_some]

/-- Settings with other recipients for what names none. -/
def withDefaultRecipients (settings : Settings) (recipients : List String) : Settings :=
  { settings with options := { settings.options with defaultRecipients := recipients } }

theorem read_update_defaultRecipients (lookup : String → Option String) (text : String) :
    read (Function.update lookup "AUTOMATION_DEFAULT_RECIPIENTS" (some text)) =
      (read lookup).map (·.withDefaultRecipients (Notification.recipientsOfText text)) := by
  unfold read
  simp only [Function.update_apply, String.reduceEq, if_false, if_true]
  cases choice "STORAGE_BACKEND" StorageBackend.postgres .memory
    ((lookup "STORAGE_BACKEND").getD "postgres") with
  | error error => rfl
  | ok storage =>
    cases choice "AUTOMATION_EMPTY_RULE_POLICY" EmptyRulePolicy.matchAll .inert
        ((lookup "AUTOMATION_EMPTY_RULE_POLICY").getD "match_all") with
    | error error => rfl
    | ok policy => rfl

theorem exists_read_defaultRecipients (text : String) :
    ∃ settings, read (Function.update (fun _ => none) "AUTOMATION_DEFAULT_RECIPIENTS" (some text)) =
      .ok settings ∧
      settings.options.defaultRecipients = Notification.recipientsOfText text := by
  obtain ⟨settings, hread⟩ : ∃ settings, read (fun _ => none) = .ok settings := exists_read rfl rfl
  refine ⟨settings.withDefaultRecipients (Notification.recipientsOfText text), ?_, rfl⟩
  rw [read_update_defaultRecipients, hread]
  rfl

end Settings

end LeadAutomation
