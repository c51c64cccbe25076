import LeadAutomation.Proofs.Host
import LeadAutomation.Proofs.Settings

/-!
# How far back a sweep reaches

A sweep ends what was begun before a point in time that lies some minutes back. The number of
minutes comes from the settings, and every number of 64 bits is one. It is refused if it is not
positive, but the point in time may also lie before the first one that there is, and nothing looks
at that: the sweep breaks down, and so does the service that begins with one.

What keeps it from that is a bound on the age alone, whatever is stored and whatever the store
replies: `sweep_returns_iff`.
-/

namespace LeadAutomation

/-! ### Cutoffs -/

namespace Timestamp

/-- There is a point in time so many minutes before another one. -/
def LastsFor (now : Timestamp) (minutes : Int) : Prop :=
  60 * minutes ≤ now.seconds + now.nanos / 1000000000 + 8334601228800

instance  (now : Timestamp) (minutes : Int) : Decidable (now.LastsFor minutes) :=
  inferInstanceAs (Decidable (_ ≤ _))

theorem lastsFor_of_nonpos {minutes : Int} (now : Timestamp) (h : minutes ≤ 0) :
    now.LastsFor minutes := by
  have := now.range
  unfold LastsFor
  omega

theorem exists_ofParts?_iff {seconds : Int} {nanos : Nat} (hnanos : nanos < 1000000000) :
    (∃ t, ofParts? seconds nanos = some t) ↔
    -8334601228800 ≤ seconds ∧ seconds ≤ 8210266876799 := by
  unfold ofParts?
  rw [dif_pos (.inl hnanos)]
  split
  · next hrange => exact iff_of_true ⟨_, rfl⟩ hrange
  · next hrange =>
    refine iff_of_false ?_ hrange
    rintro ⟨_, ⟨⟩⟩

end Timestamp

namespace Maintenance

theorem exists_cutoff?_iff {now : Timestamp} {minutes : Int} (hpos : 0 < minutes) :
    (∃ cutoff, cutoff? now minutes = some cutoff) ↔ now.LastsFor minutes := by
  have hnow := now.range
  have hlimit : Int64.maxValue.toInt / 1000 = 9223372036854775 := rfl
  unfold cutoff? Timestamp.LastsFor
  rw [hlimit]
  split
  · -- Longer than any span of time.
    have := now.nanos_lt
    refine iff_of_false ?_ (by omega)
    rintro ⟨_, ⟨⟩⟩
  · unfold Timestamp.addSeconds?
    rw [if_neg (by omega)]
    split
    · next hnanos =>
      rw [Timestamp.exists_ofParts?_iff hnanos]
      omega
    · next hnanos =>
      -- Back from a leap second, its surplus counts as a second.
      have hleap := now.nanos_lt
      rw [if_neg (by omega), Timestamp.exists_ofParts?_iff (by omega)]
      omega

section

variable {σ : Type} {answer : (call : Call) → σ → call.Reply × σ} {s : σ} {minutes : Int64}

/-- A sweep comes to a count or an error, whatever the store replies, as long as there is time to go
back. -/
theorem exists_run_sweep_of_lastsFor (hlasts : (answer .stamp s).1.now.LastsFor minutes.toInt) :
    ∃ result s', (sweep minutes).run answer s = (.returned result, s') := by
  unfold sweep
  by_cases hnonpos : minutes ≤ 0
  · rw [if_pos hnonpos]
    exact ⟨_, s, rfl⟩
  · have hpos : 0 < minutes.toInt := by
      rw [Int64.le_iff_toInt_le] at hnonpos
      exact Int.not_le.1 hnonpos
    obtain ⟨cutoff, hcutoff⟩ := (exists_cutoff?_iff hpos).2 hlasts
    rw [if_neg hnonpos, Program.run_stamp_bind, hcutoff]
    dsimp only
    rw [Program.run_store_caught_bind]
    cases (answer (.store (.failStaleExecutions cutoff abandonedMessage)) (answer .stamp s).2).1 <;>
      exact ⟨_, _, rfl⟩

theorem run_sweep_of_not_lastsFor (hlasts : ¬ (answer .stamp s).1.now.LastsFor minutes.toInt) :
    (sweep minutes).run answer s = (.crashed none, (answer .stamp s).2) := by
  have hpos : 0 < minutes.toInt := by
    by_contra hnonpos
    exact hlasts (Timestamp.lastsFor_of_nonpos _ (Int.not_lt.1 hnonpos))
  have hcutoff : cutoff? (answer .stamp s).1.now minutes.toInt = none := by
    rw [Option.eq_none_iff_forall_ne_some]
    intro cutoff hcutoff
    exact hlasts ((exists_cutoff?_iff hpos).1 ⟨cutoff, hcutoff⟩)
  unfold sweep
  rw [if_neg (by rw [Int64.le_iff_toInt_le]; exact Int.not_le.2 hpos),
    Program.run_stamp_bind, hcutoff]
  rfl

end

/-- **A sweep comes to a result just if there is time for it to go back**: then it gives a count or
an error, whatever the store replies, and otherwise it breaks down. So does the start of
maintenance, which begins with a sweep, and any number of minutes can be set. -/
theorem sweep_returns_iff {σ : Type} (answer : (call : Call) → σ → call.Reply × σ) (s : σ) :
    let now := (answer .stamp s).1.now
    (∀ minutes : Int64,
      ((∃ result, ((sweep minutes).run answer s).1 = .returned result) ↔
        now.LastsFor minutes.toInt) ∧
      (((sweep minutes).run answer s).1 = .crashed none ↔ ¬ now.LastsFor minutes.toInt)) ∧
    (∀ plan : Plan,
      ((∃ logged, ((start plan).run answer s).1 = .returned logged) ↔
        now.LastsFor plan.staleMinutes.toInt) ∧
      (((start plan).run answer s).1 = .crashed none ↔ ¬ now.LastsFor plan.staleMinutes.toInt)) ∧
    ∀ minutes, ∃ lookup settings, Settings.read lookup = .ok settings ∧
    settings.maintenance.staleMinutes = minutes := by
  intro now
  have hsplit {α : Type} {ended : Outcome α} {lasts : Prop} (hreturned : lasts →
    ∃ a, ended = .returned a)
      (hcrashed : ¬ lasts → ended = .crashed none) :
      ((∃ a, ended = .returned a) ↔ lasts) ∧ (ended = .crashed none ↔ ¬ lasts) := by
    by_cases hlasts : lasts
    · obtain ⟨a, rfl⟩ := hreturned hlasts
      refine ⟨iff_of_true ⟨a, rfl⟩ hlasts, iff_of_false ?_ (not_not_intro hlasts)⟩
      rintro ⟨⟩
    · obtain rfl := hcrashed hlasts
      refine ⟨iff_of_false ?_ hlasts, iff_of_true rfl hlasts⟩
      rintro ⟨_, ⟨⟩⟩
  refine ⟨fun minutes => hsplit ?_ ?_, fun plan => hsplit ?_ ?_, Settings.exists_read_staleMinutes⟩
  · intro hlasts
    obtain ⟨result, s', hrun⟩ := exists_run_sweep_of_lastsFor hlasts
    exact ⟨result, congrArg Prod.fst hrun⟩
  · intro hnot
    exact congrArg Prod.fst (run_sweep_of_not_lastsFor hnot)
  · intro hlasts
    obtain ⟨result, s', hrun⟩ := exists_run_sweep_of_lastsFor hlasts
    refine ⟨([⟨result⟩], plan.cron.map fun _ => ()), ?_⟩
    rw [start, Program.run_bind, hrun]
    rfl
  · intro hnot
    rw [start, Program.run_bind, run_sweep_of_not_lastsFor hnot]

/-- Settings that ask for the greatest age there is. -/
def ageless (setting : String) : Option String :=
  if setting = "AUTOMATION_STALE_EXECUTION_MINUTES" then some "9223372036854775807" else none

/-- The greatest age leads out of time: the sweep breaks down, and with it the start of the
service. -/
theorem not_returns_ageless :
    ∃ settings, Settings.read ageless = .ok settings ∧ settings.maintenance.staleMinutes =
      Int64.maxValue ∧
      ((sweep settings.maintenance.staleMinutes).run Host.still.answer {}).1 = .crashed none ∧
      ((start settings.maintenance).run Host.still.answer {}).1 = .crashed none ∧
      ¬ ∃ result, ((sweep settings.maintenance.staleMinutes).run Host.still.answer {}).1 =
        .returned result := by
  obtain ⟨settings, hread⟩ : ∃ settings, Settings.read ageless = .ok settings :=
    Settings.exists_read rfl rfl
  have hmax : settings.maintenance.staleMinutes = Int64.maxValue :=
    (Settings.staleMinutes_of_read hread).trans (by decide +kernel)
  have hsweep : ((sweep settings.maintenance.staleMinutes).run Host.still.answer {}).1 =
      .crashed none := by
    rw [hmax]
    rfl
  refine ⟨settings, hread, hmax, hsweep, ?_, ?_⟩
  · rw [start, Program.run_bind, run_sweep_of_not_lastsFor (by rw [hmax]; decide)]
  · rintro ⟨_, hreturned⟩
    cases hsweep.symm.trans hreturned

end Maintenance

end LeadAutomation
