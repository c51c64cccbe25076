import LeadAutomation.Json.Decode
import LeadAutomation.Proofs.Json.Canonical
import LeadAutomation.Proofs.Timestamp
import LeadAutomation.Proofs.Uuid

/-!
# Fields of written records

A record is written as an object that has each of its fields under one name. `Fields.Gives` says
what fields are read from such an object, and is put together from single fields as the fields
themselves are. `Fields.Yields` says what holds of whatever fields are read, from any draft.

The decoders of single values read back what is written for a value; those of free-form data do
where the data is canonical, and canonical is all that they yield.
-/

namespace LeadAutomation

open Json.Draft (ofJson ofItems ofMembers)

/-! ### Single values -/

namespace Decoder

variable {α : Type}

theorem mismatch_ne_ok {draft : Json.Draft} {expected : String} {a : α} :
    mismatch draft expected ≠ .ok a := by
  unfold mismatch
  split <;> nofun

theorem int32_toInt (n : Int32) : int32 (ofJson (.int n.toInt)) = .ok n := by
  have hrange : Int32.minValue.toInt ≤ n.toInt ∧ n.toInt ≤ Int32.maxValue.toInt :=
    ⟨n.minValue_le_toInt, n.toInt_le⟩
  simp only [int32, intWithin, Json.int, ofJson, if_pos hrange]
  exact congrArg Except.ok n.ofInt_toInt

theorem int64_toInt (n : Int64) : int64 (ofJson (.int n.toInt)) = .ok n := by
  have hrange : Int64.minValue.toInt ≤ n.toInt ∧ n.toInt ≤ Int64.maxValue.toInt :=
    ⟨n.minValue_le_toInt, n.toInt_le⟩
  simp only [int64, intWithin, Json.int, ofJson, if_pos hrange]
  exact congrArg Except.ok n.ofInt_toInt

theorem uuid_toJson (id : Uuid) : uuid (ofJson id.toJson) = .ok id := by
  simp only [uuid, Uuid.toJson, ofJson, Uuid.ofText?_text]

theorem timestamp_toJson (t : Timestamp) : timestamp (ofJson t.toJson) = .ok t := by
  simp only [timestamp, Timestamp.toJson, ofJson, Timestamp.ofText?_text]

theorem named_name [Named α] (a : α) : named (ofJson (.str (Named.name a))) = .ok a := by
  change name (Named.name a) = _
  rw [name, Named.ofName?_name]

theorem word_text [PlainNamed α] (w : Word α) : word (ofJson (.str w.text)) = .ok w :=
  congrArg Except.ok (Word.ofText_text w)

theorem value_ofJson {json : Json} (h : json.IsCanonical) : value (ofJson json) = .ok json := by
  rw [value, whole, Json.Draft.value?_ofJson]
  exact congrArg Except.ok h

theorem members_obj {members : Json.Members} (h : members.IsCanonical) :
    Decoder.members (ofJson (.obj members)) = .ok members := by
  simp only [Decoder.members, ofJson, Json.Draft.memberValues?_ofMembers]
  exact congrArg Except.ok h

theorem isCanonical_of_value {draft : Json.Draft} {json : Json} (h : value draft = .ok json) :
    json.IsCanonical := by
  unfold value whole at h
  split at h
  · obtain rfl := Except.ok.inj h
    exact Json.canonical_canonical _
  · cases h

theorem isCanonical_of_members {draft : Json.Draft} {members : Json.Members}
    (h : Decoder.members draft = .ok members) :
    members.IsCanonical := by
  unfold Decoder.members at h
  split at h
  · split at h
    · obtain rfl := Except.ok.inj h
      exact Json.Members.isCanonical_sortMembers _
    · cases h
  · exact absurd h mismatch_ne_ok

/-- An optional value is read back unless it is written as `null`. -/
theorem nullable_orNull {decode : Decoder α} {encode : α → Json} (a : Option α)
    (h : ∀ b ∈ a, encode b ≠ .null ∧ decode (ofJson (encode b)) = .ok b) :
    nullable decode (ofJson (.orNull encode a)) = .ok a := by
  cases a with
  | none => rfl
  | some b =>
    obtain ⟨hnull, hdecode⟩ := h b rfl
    change nullable decode (ofJson (encode b)) = _
    unfold nullable
    split
    · rename_i heq
      cases hjson : encode b with
      | null => exact absurd hjson hnull
      | _ => rw [hjson] at heq; cases heq
    · rw [hdecode]
      rfl

theorem list_map {β : Type} {decode : Decoder β} {encode : α → Json} {g : α → β} (as : List α)
    (h : ∀ a ∈ as, decode (ofJson (encode a)) = .ok (g a)) :
    list decode (ofJson (.arr (as.map encode))) = .ok (as.map g) := by
  change (ofItems (as.map encode)).mapM decode = .ok (as.map g)
  induction as with
  | nil => rfl
  | cons a rest ih =>
    obtain ⟨ha, hrest⟩ := List.forall_mem_cons.1 h
    rw [List.map_cons, ofItems, List.mapM_cons, ha, ih hrest]
    rfl

theorem list_encoded {decode : Decoder α} {encode : α → Json} (as : List α)
    (h : ∀ a ∈ as, decode (ofJson (encode a)) = .ok a) :
    list decode (ofJson (.arr (as.map encode))) = .ok as := by
  have hmap := list_map (g := id) as h
  rwa [List.map_id] at hmap

theorem named_texts [Named α] (as : List α) :
    list named (ofJson (.texts (as.map Named.name))) = .ok as := by
  rw [Json.texts, List.map_map]
  exact list_encoded as fun a _ => named_name a

theorem exists_of_mem_mapM {β : Type} {read : β → Except DecodeError α} {items : List β}
    {as : List α} (h : items.mapM read = .ok as) {a : α} (hmem : a ∈ as) :
    ∃ item ∈ items, read item = .ok a := by
  induction items generalizing as with
  | nil =>
    obtain rfl := Except.ok.inj h
    cases hmem
  | cons item rest ih =>
    rw [List.mapM_cons] at h
    cases hitem : read item with
    | error error => rw [hitem] at h; cases h
    | ok first =>
      cases hrest : rest.mapM read with
      | error error => rw [hitem, hrest] at h; cases h
      | ok others =>
        rw [hitem, hrest] at h
        obtain rfl := Except.ok.inj h
        rcases List.mem_cons.1 hmem with rfl | hmem
        · exact ⟨item, List.mem_cons_self, hitem⟩
        · obtain ⟨found, hfound, hread⟩ := ih hrest hmem
          exact ⟨found, List.mem_cons_of_mem _ hfound, hread⟩

theorem exists_of_mem_list {decode : Decoder α} {draft : Json.Draft} {as : List α}
    (h : list decode draft = .ok as) {a : α} (hmem : a ∈ as) : ∃ item, decode item = .ok a := by
  unfold list at h
  split at h
  · obtain ⟨item, -, hitem⟩ := exists_of_mem_mapM h hmem
    exact ⟨item, hitem⟩
  · exact absurd h mismatch_ne_ok

end Decoder

/-! ### Written records -/

namespace Fields

variable {α β : Type}

/-- Nothing in a written record stops a reader. -/
theorem passOthers_ofMembers (names : List String) (members : Json.Members) :
    passOthers names (ofMembers members) = .ok () := by
  have hnone : (ofMembers members).findIdx? (stops names) = none := by
    induction members with
    | nil => rfl
    | cons first rest ih =>
      obtain ⟨key, value⟩ := first
      have hfirst : stops names (some key, ofJson value) = false := by
        simp [stops, Json.Draft.isWhole_ofJson]
      rw [ofMembers, List.findIdx?_cons, hfirst, ih]
      rfl
  rw [passOthers, hnone]

/-- The members that answer to some names, in a written record. -/
theorem matching_ofMembers (names : List String) (members : Json.Members) :
    (matching names (ofMembers members)).map Prod.fst =
      (members.filter (names.contains ·.1)).map (ofJson ·.2) := by
  have hfrom : ∀ start,
    (((ofMembers members).zipIdx start).filter fun pair => isNamed names pair.1.1).map (·.1.2) =
      (members.filter (names.contains ·.1)).map (ofJson ·.2) := by
    induction members with
    | nil => intro start; rfl
    | cons first rest ih =>
      intro start
      obtain ⟨key, value⟩ := first
      rw [ofMembers, List.zipIdx_cons, List.filter_cons, List.filter_cons]
      change List.map _ (if names.contains key then _ else _) =
        List.map _ (if names.contains key then _ else _)
      split
      · rw [List.map_cons, List.map_cons, ih]
      · exact ih _
  rw [matching, List.map_map]
  exact hfrom 0

/-- From some members, these fields are read as a value. -/
def Gives (fields : Fields α) (members : Json.Members) (a : α) : Prop :=
  ∀ shape declared, fields.read shape (.members (ofMembers members)) declared = .ok a

namespace Gives

variable {members : Json.Members}

theorem map {fields : Fields α} {a : α} (h : fields.Gives members a) (f : α → β) :
    (f <$> fields).Gives members (f a) := by
  intro shape declared
  change both (.ok f) (fields.read shape _ _) = _
  rw [h]
  rfl

theorem seq {f : Fields (α → β)} {g : α → β} {x : Fields α} {a : α} (hf : f.Gives members g)
    (hx : x.Gives members a) :
    (f <*> x).Gives members (g a) := by
  intro shape declared
  change both (f.read shape _ _) (x.read shape _ _) = _
  rw [hf, hx]
  rfl

variable {name : String} {aliases : List String} {decode : Decoder α} {absent omitted : Option α}

/-- A field is read from the one member that answers to its names. -/
theorem field {key : String} {value : Json} {a : α}
    (hfound : members.filter ((name :: aliases).contains ·.1) = [(key, value)])
    (hdecode : decode (ofJson value) = .ok a) :
    (Fields.field name aliases decode absent omitted).Gives members a := by
  have hmatching := matching_ofMembers (name :: aliases) members
  rw [hfound, List.map_singleton] at hmatching
  intro shape declared
  obtain ⟨⟨draft, position⟩, hpair, hdraft⟩ := List.map_eq_singleton_iff.1 hmatching
  obtain rfl : draft = ofJson value := hdraft
  simp only [Fields.field, hpair, valueAt, hdecode]
  rfl

theorem missing {a : α} (hfound : members.filter ((name :: aliases).contains ·.1) = []) :
    (Fields.field name aliases decode (some a) omitted).Gives members a := by
  have hmatching := matching_ofMembers (name :: aliases) members
  rw [hfound, List.map_nil, List.map_eq_nil_iff] at hmatching
  intro shape declared
  simp only [Fields.field, hmatching]

theorem required {key : String} {value : Json} {a : α}
    (hfound : members.filter ((name :: aliases).contains ·.1) = [(key, value)])
    (hdecode : decode (ofJson value) = .ok a) :
    (Fields.required name decode aliases).Gives members a := by
  unfold Fields.required
  exact field hfound hdecode

theorem defaulted {key : String} {value : Json} {a b : α}
    (hfound : members.filter ((name :: aliases).contains ·.1) = [(key, value)])
    (hdecode : decode (ofJson value) = .ok a) :
    (Fields.defaulted name decode b aliases).Gives members a := by
  unfold Fields.defaulted
  exact field hfound hdecode

/-- A field whose member is `null` where it has no value. -/
theorem spare {key : String} {encode : α → Json} {a : Option α}
    (hfound : members.filter ((name :: aliases).contains ·.1) = [(key, .orNull encode a)])
    (h : ∀ b ∈ a, encode b ≠ .null ∧ decode (ofJson (encode b)) = .ok b) :
    (Fields.spare name decode aliases).Gives members a := by
  unfold Fields.spare
  exact defaulted hfound (Decoder.nullable_orNull a h)

theorem nullable {key : String} {encode : α → Json} {a : Option α}
    (hfound : members.filter ((name :: aliases).contains ·.1) = [(key, .orNull encode a)])
    (h : ∀ b ∈ a, encode b ≠ .null ∧ decode (ofJson (encode b)) = .ok b) :
    (Fields.optional name decode aliases).Gives members a := by
  unfold Fields.optional
  exact field hfound (Decoder.nullable_orNull a h)

/-- A field whose member is left out where it has no value. -/
theorem optional {key : String} {encode : α → Json} {a : Option α} {g : α → Option α}
    (hfound : members.filter ((name :: aliases).contains ·.1) = Json.optional key encode a)
    (h : ∀ b ∈ a, Decoder.nullable decode (ofJson (encode b)) = .ok (g b)) :
    (Fields.optional name decode aliases).Gives members (a.bind g) := by
  unfold Fields.optional
  cases a with
  | none => exact missing hfound
  | some b => exact field hfound (h b rfl)

theorem decode_obj {fields : Fields α} {a : α} (h : fields.Gives members a) (name : String) :
    fields.decode name (ofJson (.obj members)) = .ok a := by
  change (both ((fun _ a => a) <$> passOthers _ (ofMembers members))
    (fields.read _ (.members (ofMembers members)) 0)).mapError _ = _
  rw [passOthers_ofMembers, h]
  rfl

end Gives

/-- Whatever is read as these fields has a property. -/
def Yields (fields : Fields α) (P : α → Prop) : Prop :=
  ∀ shape source declared a, fields.read shape source declared = .ok a → P a

namespace Yields

variable {P : β → Prop} {Q : α → Prop}

theorem seq {f : Fields (α → β)} {x : Fields α} (hf : f.Yields fun g => ∀ a, Q a → P (g a))
    (hx : x.Yields Q) :
    (f <*> x).Yields P := by
  intro shape source declared b h
  change both (f.read shape source declared) (x.read shape source (declared + f.count)) = .ok b at h
  cases hg : f.read shape source declared with
  | error fault =>
    rw [hg] at h
    cases hread : x.read shape source (declared + f.count) <;> rw [hread] at h <;> cases h
  | ok g =>
    rw [hg] at h
    cases hread : x.read shape source (declared + f.count) with
    | error fault => rw [hread] at h; cases h
    | ok a =>
      rw [hread] at h
      obtain rfl := Except.ok.inj h
      exact hf _ _ _ _ hg a (hx _ _ _ _ hread)

section Last

variable (name : String) {aliases : List String} {decode : Decoder α} {absent omitted : Option α}

/-- A property that depends on the last field through what that field yields. -/
theorem keep {f : Fields (α → β)}
    (hlast : (Fields.field name aliases decode absent omitted).Yields Q)
    (hf : f.Yields fun g => ∀ a, Q a → P (g a)) :
    (f <*> Fields.field name aliases decode absent omitted).Yields P :=
  seq hf hlast

/-- A property that does not depend on the last field. -/
theorem skip {f : Fields (α → β)} (hf : f.Yields fun g => ∀ a, P (g a)) :
    (f <*> Fields.field name aliases decode absent omitted).Yields P :=
  seq (Q := fun _ => True) (fun _ _ _ _ hg a _ => hf _ _ _ _ hg a) fun _ _ _ _ _ => trivial

/-- A property that does not depend on the first field either. -/
theorem start {f : α → β} (hf : ∀ a, P (f a)) :
    (f <$> Fields.field name aliases decode absent omitted).Yields P :=
  skip (f := pure f) name fun _ _ _ g hg => by
    obtain rfl := Except.ok.inj hg
    exact hf

end Last

theorem of_valueAt {decode : Decoder α} {position : Nat} {draft : Json.Draft} {a : α}
    (h : valueAt decode position draft = .ok a) : decode draft = .ok a := by
  unfold valueAt at h
  cases hdecode : decode draft with
  | error error => rw [hdecode] at h; cases h
  | ok b =>
    rw [hdecode] at h
    exact congrArg Except.ok (Except.ok.inj h)

theorem field {name : String} {aliases : List String} {decode : Decoder α}
    {absent omitted : Option α} (hdecode : ∀ draft a, decode draft = .ok a → Q a)
    (habsent : ∀ a ∈ absent, Q a) (homitted : ∀ a ∈ omitted, Q a) :
    (Fields.field name aliases decode absent omitted).Yields Q := by
  intro shape source declared a h
  cases source with
  | members members =>
    simp only [Fields.field] at h
    split at h
    · split at h
      · exact habsent _ (congrArg some (Except.ok.inj h))
      · cases h
    · exact hdecode _ _ (of_valueAt h)
    · split at h <;> cases h
  | items items =>
    simp only [Fields.field] at h
    split at h
    · exact hdecode _ _ (of_valueAt h)
    · split at h
      · exact homitted _ (congrArg some (Except.ok.inj h))
      · cases h

section Single

variable {name : String} {aliases : List String} {decode : Decoder α}

theorem required (hdecode : ∀ draft a, decode draft = .ok a → Q a) :
    (Fields.required name decode aliases).Yields Q := by
  unfold Fields.required
  exact field hdecode (by simp) (by simp)

theorem defaulted {absent : α} (hdecode : ∀ draft a, decode draft = .ok a → Q a)
    (habsent : Q absent) :
    (Fields.defaulted name decode absent aliases).Yields Q := by
  unfold Fields.defaulted
  exact field hdecode (by simpa using habsent) (by simpa using habsent)

theorem optional (hdecode : ∀ draft a, decode draft = .ok a → Q a) :
    (Fields.optional name decode aliases).Yields fun found => ∀ a ∈ found, Q a := by
  unfold Fields.optional
  refine field (fun draft found h a hmem => ?_) (by simp) (by simp)
  unfold Decoder.nullable at h
  split at h
  · cases h
    cases hmem
  · cases hread : decode draft with
    | error error => rw [hread] at h; cases h
    | ok b =>
      rw [hread] at h
      cases h
      cases hmem
      exact hdecode draft a hread

end Single

theorem of_decode {fields : Fields α} (h : fields.Yields Q) {name : String} {draft : Json.Draft}
    {a : α} (hdecode : fields.decode name draft = .ok a) : Q a := by
  unfold Fields.decode at hdecode
  split at hdecode
  · rename_i members
    cases hread : fields.read ⟨name, fields.count⟩ (.members members) 0 with
    | error fault =>
      rw [hread] at hdecode
      cases hpass : passOthers fields.names.flatten members <;>
        rw [hpass] at hdecode <;> cases hdecode
    | ok b =>
      rw [hread] at hdecode
      cases hpass : passOthers fields.names.flatten members with
      | error fault => rw [hpass] at hdecode; cases hdecode
      | ok _ =>
        rw [hpass] at hdecode
        exact h _ _ _ _ (hread.trans (congrArg Except.ok (Except.ok.inj hdecode)))
  · split at hdecode
    · rename_i b hread
      split at hdecode
      · cases hdecode
      · exact h _ _ _ _ (hread.trans (congrArg Except.ok (Except.ok.inj hdecode)))
    · cases hdecode
  · exact absurd hdecode Decoder.mismatch_ne_ok

end Yields

end Fields

end LeadAutomation
