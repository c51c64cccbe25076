import LeadAutomation.Proofs.Json.Canonical
import LeadAutomation.Proofs.Settings

/-!
# Recipients

Recipients are named by a list of texts or by one text with commas, in metadata, in the
configuration of a step and in the settings. However they are named, what comes of it is a list of
addresses: `Notification.IsAddress`. An address names itself and nothing else, and a list of texts
names what they name when they are joined with commas. So the recipients that were named can be put
back in the place that they came from, in either form, and name themselves again:
`Notification.recipients_readAgain`.
-/

namespace LeadAutomation

/-! ### Texts between separators -/

namespace Text

variable {separator : Char} {cs : List Char}

theorem not_mem_of_mem_splitChars {piece : List Char} (h : piece ∈ splitChars separator cs) :
    separator ∉ piece := by
  induction cs generalizing piece with
  | nil =>
    obtain rfl := List.mem_singleton.1 h
    exact List.not_mem_nil
  | cons c rest ih =>
    unfold splitChars at h
    cases hpieces : splitChars separator rest with
    | nil => exact absurd hpieces (splitChars_ne_nil separator rest)
    | cons first others =>
      rw [hpieces] at h ih
      dsimp only at h
      split at h
      · rcases List.mem_cons.1 h with rfl | hmem
        · exact List.not_mem_nil
        · exact ih hmem
      · next hne =>
        rcases List.mem_cons.1 h with rfl | hmem
        · rw [List.mem_cons, not_or]
          exact ⟨Ne.symm hne, ih List.mem_cons_self⟩
        · exact ih (List.mem_cons_of_mem _ hmem)

theorem splitChars_of_not_mem (h : separator ∉ cs) : splitChars separator cs = [cs] := by
  induction cs with
  | nil => rfl
  | cons c rest ih =>
    rw [List.mem_cons, not_or] at h
    rw [splitChars, ih h.2]
    exact if_neg (Ne.symm h.1)

/-- No piece reaches over a separator. -/
theorem splitChars_append (separator : Char) (cs rest : List Char) :
    splitChars separator (cs ++ separator :: rest) =
      splitChars separator cs ++ splitChars separator rest := by
  induction cs with
  | nil =>
    cases hpieces : splitChars separator rest with
    | nil => exact absurd hpieces (splitChars_ne_nil separator rest)
    | cons piece pieces => simp [splitChars, hpieces]
  | cons c cs ih =>
    rw [List.cons_append, splitChars, ih, splitChars]
    cases hpieces : splitChars separator cs with
    | nil => exact absurd hpieces (splitChars_ne_nil separator cs)
    | cons piece pieces =>
      simp only [List.cons_append]
      split <;> rfl

theorem mem_of_mem_trimFront {c : Char} (h : c ∈ trimFront cs) : c ∈ cs :=
  (List.dropWhile_suffix isBlank).mem h

theorem mem_of_mem_trimChars {c : Char} (h : c ∈ trimChars cs) : c ∈ cs :=
  mem_of_mem_trimFront (List.mem_reverse.1 (mem_of_mem_trimFront (List.mem_reverse.1 h)))

end Text

namespace Notification

/-! ### Addresses -/

/-- A text can stand for one recipient in a list with commas. -/
structure IsAddress (recipient : String) : Prop where
  trimmed : Text.trim recipient = recipient
  given : recipient ≠ ""
  undivided : ',' ∉ recipient.toList

theorem isAddress_of_mem_recipientsOfText {text recipient : String}
    (h : recipient ∈ recipientsOfText text) :
    IsAddress recipient := by
  obtain ⟨hmem, hgiven⟩ := List.mem_filter.1 h
  obtain ⟨piece, hpiece, rfl⟩ := List.mem_map.1 hmem
  obtain ⟨cs, hcs, rfl⟩ := List.mem_map.1 hpiece
  refine ⟨Text.trim_trim _, of_decide_eq_true hgiven, fun hcomma => ?_⟩
  rw [Text.trim, String.toList_ofList, String.toList_ofList] at hcomma
  exact Text.not_mem_of_mem_splitChars hcs (Text.mem_of_mem_trimChars hcomma)

theorem isAddress_of_mem_recipientsOfJson {json : Json} {recipient : String}
    (h : recipient ∈ recipientsOfJson json) :
    IsAddress recipient := by
  unfold recipientsOfJson at h
  split at h
  · exact isAddress_of_mem_recipientsOfText h
  · obtain ⟨text, -, hmem⟩ := List.mem_flatMap.1 h
    exact isAddress_of_mem_recipientsOfText hmem
  · cases h

theorem isAddress_of_mem_recipientsOf {metadata : Json.Members} {recipient : String}
    (h : recipient ∈ recipientsOf metadata) :
    IsAddress recipient := by
  unfold recipientsOf at h
  split at h
  · exact isAddress_of_mem_recipientsOfJson h
  · cases h

/-! ### What texts name -/

theorem recipientsOfText_of_isAddress {recipient : String} (h : IsAddress recipient) :
    recipientsOfText recipient = [recipient] := by
  rw [recipientsOfText, Text.split, Text.splitChars_of_not_mem h.undivided, List.map_singleton,
    List.map_singleton, String.ofList_toList, h.trimmed]
  exact List.filter_cons_of_pos (decide_eq_true h.given)

theorem flatMap_recipientsOfText {recipients : List String}
    (h : ∀ recipient ∈ recipients, IsAddress recipient) :
    recipients.flatMap recipientsOfText = recipients := by
  induction recipients with
  | nil => rfl
  | cons recipient rest ih =>
    obtain ⟨hfirst, hrest⟩ := List.forall_mem_cons.1 h
    rw [List.flatMap_cons, recipientsOfText_of_isAddress hfirst, ih hrest, List.singleton_append]

theorem recipientsOfText_append (first second : String) :
    recipientsOfText (first ++ "," ++ second) =
      recipientsOfText first ++ recipientsOfText second := by
  have hchars : (first ++ "," ++ second).toList = first.toList ++ ',' :: second.toList := by
    simp only [String.toList_append, List.append_assoc]
    rfl
  have hsplit :
      Text.split ',' (first ++ "," ++ second) = Text.split ',' first ++ Text.split ',' second := by
    rw [Text.split, hchars, Text.splitChars_append, List.map_append]
    rfl
  rw [recipientsOfText, hsplit, List.map_append, List.filter_append]
  rfl

theorem recipientsOfText_join (texts : List String) :
    recipientsOfText (Text.join "," texts) = texts.flatMap recipientsOfText := by
  induction texts with
  | nil => rfl
  | cons first rest ih =>
    cases rest with
    | nil => rw [Text.join, List.flatMap_singleton]
    | cons second others =>
      change recipientsOfText (first ++ "," ++ Text.join "," (second :: others)) = _
      rw [recipientsOfText_append, ih]
      exact List.flatMap_cons.symm

theorem recipientsOfJson_texts (texts : List String) :
    recipientsOfJson (.texts texts) = texts.flatMap recipientsOfText := by
  have htexts : (texts.map Json.str).filterMap Json.text? = texts := by
    rw [List.filterMap_map]
    exact List.filterMap_some
  rw [Json.texts, recipientsOfJson, htexts]

end Notification

/-! ### Recipients in the settings -/

namespace Settings

theorem isAddress_of_mem_defaultRecipients {lookup : String → Option String} {settings : Settings}
    (hread : read lookup = .ok settings) :
    ∀ recipient ∈ settings.options.defaultRecipients, Notification.IsAddress recipient := by
  rw [defaultRecipients_of_read hread]
  exact fun recipient => Notification.isAddress_of_mem_recipientsOfText

end Settings

/-! ### Recipients that are named again -/

namespace Notification

/-- Metadata in which a value names the recipients, whatever named them before. -/
def naming (json : Json) (metadata : Json.Members) : Json.Members :=
  Json.insertMember "recipients" json metadata

theorem recipientsOf_naming (json : Json) (metadata : Json.Members) :
    recipientsOf (naming json metadata) = recipientsOfJson json := by
  rw [recipientsOf, naming, Json.lookup_insertMember]

/-- Every list of addresses can be named, and nothing else can. -/
theorem exists_recipientsOf_iff {recipients : List String} :
    (∃ metadata, recipientsOf metadata = recipients) ↔
    ∀ recipient ∈ recipients, IsAddress recipient := by
  constructor
  · rintro ⟨metadata, rfl⟩
    exact fun recipient => isAddress_of_mem_recipientsOf
  · intro h
    refine ⟨naming (.texts recipients) [], ?_⟩
    rw [recipientsOf_naming, recipientsOfJson_texts, flatMap_recipientsOfText h]

/-- Recipients that were named can be named again. What metadata can name are the lists of
addresses, all of them and nothing else. Put back into any metadata, as a list or as one text with
commas, such a list names itself. A list of any values names what its texts name one after another,
which for a list of texts is what they name when they are joined with commas. And a text in the
settings makes those the default recipients whom it would name in metadata, and decides on nothing
else that is set. -/
theorem recipients_readAgain (origin metadata : Json.Members) :
    let named := recipientsOf origin
    (recipientsOf (naming (.texts named) metadata) = named ∧
      recipientsOf (naming (.str (Text.join "," named)) metadata) = named) ∧
    (∀ recipients, (∃ source, recipientsOf source = recipients) ↔
      ∀ recipient ∈ recipients, IsAddress recipient) ∧
    (∀ items, recipientsOf (naming (.arr items) metadata) =
      (items.filterMap Json.text?).flatMap fun text => recipientsOf (naming (.str text) metadata)) ∧
    (∀ texts, recipientsOf (naming (.texts texts) metadata) =
      recipientsOf (naming (.str (Text.join "," texts)) metadata)) ∧
    (∀ lookup text,
      Settings.read (Function.update lookup "AUTOMATION_DEFAULT_RECIPIENTS" (some text)) =
      (Settings.read lookup).map
        (·.withDefaultRecipients (recipientsOf (naming (.str text) metadata)))) ∧
    (∀ text, ∃ settings,
      Settings.read (Function.update (fun _ => none) "AUTOMATION_DEFAULT_RECIPIENTS" (some text)) =
        .ok settings ∧
        settings.options.defaultRecipients = recipientsOf (naming (.str text) metadata)) := by
  intro named
  have hnamed : named.flatMap recipientsOfText = named :=
    flatMap_recipientsOfText (exists_recipientsOf_iff.1 ⟨origin, rfl⟩)
  have htext (text : String) : recipientsOf (naming (.str text) metadata) = recipientsOfText text :=
    recipientsOf_naming _ _
  refine ⟨⟨?_, ?_⟩, fun _ => exists_recipientsOf_iff, fun items => ?_, fun texts => ?_,
    fun lookup text => ?_, fun text => ?_⟩
  · rw [recipientsOf_naming, recipientsOfJson_texts, hnamed]
  · rw [htext, recipientsOfText_join, hnamed]
  · rw [recipientsOf_naming, recipientsOfJson]
    simp only [htext]
  · rw [recipientsOf_naming, recipientsOfJson_texts, htext, recipientsOfText_join]
  · rw [htext, Settings.read_update_defaultRecipients]
  · rw [htext]
    exact Settings.exists_read_defaultRecipients text

/-- Blanks of all kinds, empty pieces and what is no text name no one. -/
example : recipientsOf
    [("recipients",
      .arr [.str " sales@acme.io,, ops@acme.io,", .int 7, .str "\u00a0,\u3000team"])] =
    ["sales@acme.io", "ops@acme.io", "team"] := by decide +kernel

end Notification

end LeadAutomation
