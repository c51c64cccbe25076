import LeadAutomation.Workflow.Settings

/-!
# The kind of settings

Whatever the configuration of a step holds, it is read as settings of the step's own kind. What a
failed step counts for can therefore be told from its kind alone.
-/

namespace LeadAutomation

namespace Fields

variable {α β : Type} {shape : RecordShape} {source : RecordSource} {declared : Nat}

theorem read_seq_ok {f : Fields (α → β)} {x : Fields α} {b : β}
    (h : (f <*> x).read shape source declared = .ok b) :
    ∃ g a, f.read shape source declared = .ok g ∧ x.read shape source (declared + f.count) =
      .ok a ∧ b = g a := by
  change both (f.read shape source declared) (x.read shape source (declared + f.count)) = .ok b at h
  unfold both at h
  split at h
  · next g a hg ha => exact ⟨g, a, hg, ha, (Except.ok.inj h).symm⟩
  all_goals cases h

theorem read_map_ok {f : α → β} {x : Fields α} {b : β}
    (h : (f <$> x).read shape source declared = .ok b) :
    ∃ a, x.read shape source declared = .ok a ∧ b = f a := by
  obtain ⟨g, a, hg, ha, rfl⟩ := read_seq_ok (f := pure f) h
  cases hg
  exact ⟨a, ha, rfl⟩

theorem exists_read_of_decode {fields : Fields α} {name : String} {draft : Json.Draft} {a : α}
    (h : fields.decode name draft = .ok a) :
    ∃ shape source, fields.read shape source 0 = .ok a := by
  unfold decode at h
  split at h
  · next members =>
    cases hread : fields.read ⟨name, fields.count⟩ (.members members) 0 with
    | ok b =>
      rw [hread] at h
      cases hothers : passOthers fields.names.flatten members with
      | ok u =>
        rw [hothers] at h
        cases h
        exact ⟨_, _, hread⟩
      | error fault =>
        rw [hothers] at h
        cases h
    | error fault =>
      rw [hread] at h
      cases hothers : passOthers fields.names.flatten members <;> rw [hothers] at h <;> cases h
  · next items =>
    split at h
    · next b hread =>
      split at h
      · cases h
      · cases h
        exact ⟨_, _, hread⟩
    · cases h
  · unfold Decoder.mismatch at h
    split at h <;> cases h

end Fields

/-- The kind of step that has such settings. -/
def StepSettings.kind : StepSettings → StepKind
  | .action _ => .action
  | .condition _ => .condition
  | .delay _ => .delay
  | .notification .. => .notification
  | .integration .. => .integration

private theorem exists_of_map_ok {ε α β : Type} {f : α → β} {result : Except ε α} {b : β}
    (h : f <$> result = .ok b) : ∃ a, b = f a := by
  cases result with
  | ok a => exact ⟨a, (Except.ok.inj h).symm⟩
  | error error => cases h

theorem StepSettings.kind_of_decode {kind : StepKind} {config : Json} {settings : StepSettings}
    (h : StepSettings.decode kind config = .ok settings) : settings.kind = kind := by
  cases kind with
  | action => obtain ⟨_, rfl⟩ := exists_of_map_ok h; rfl
  | condition => obtain ⟨_, rfl⟩ := exists_of_map_ok h; rfl
  | delay => obtain ⟨_, rfl⟩ := exists_of_map_ok h; rfl
  | notification => obtain ⟨_, rfl⟩ := exists_of_map_ok h; rfl
  | integration =>
    obtain ⟨shape, source, hread⟩ := Fields.exists_read_of_decode h
    obtain ⟨_, _, hcall, -, rfl⟩ := Fields.read_seq_ok hread
    obtain ⟨_, _, hid, -, rfl⟩ := Fields.read_seq_ok hcall
    obtain ⟨_, -, rfl⟩ := Fields.read_map_ok hid
    rfl

theorem Step.kind_of_settings {step : Step} {settings : StepSettings}
    (h : step.settings = .ok settings) :
    step.kind = .known settings.kind := by
  unfold Step.settings at h
  split at h
  · next kind hkind =>
    cases hdecode : StepSettings.decode kind step.config with
    | ok decoded =>
      rw [hdecode] at h
      cases h
      rw [hkind, StepSettings.kind_of_decode hdecode]
    | error fault =>
      rw [hdecode] at h
      cases h
  · cases h

end LeadAutomation
