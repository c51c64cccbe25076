import LeadAutomation.Proofs.Rehearsals

/-!
# Manners

Systems outside may reply as they like, and two runs of one program can be compared only if they are
told the same. A manner is a way of replying that looks at nothing but what was asked before, so
that it is the same at any time and whatever is stored. A program that only talks to systems outside
has a single run in which they reply in a given manner: `unique_of_explains`. To oblige is a manner,
so nothing that is said about a rehearsal can differ from what then really happens.
-/

namespace LeadAutomation

/-- How systems outside reply to a call, after the calls that were made before it. -/
def Manner : Type := List EffectCall → (call : EffectCall) → Outcome call.Result

namespace Manner

/-- In some exchanges systems outside reply in a manner, where `asked` is what was asked of them
before. -/
def Explains (manner : Manner) : List EffectCall → List Exchange → Prop
  | _, [] => True
  | asked, ⟨.effect call, reply⟩ :: rest =>
    reply = manner asked call ∧ Explains manner (asked ++ [call]) rest
  | asked, ⟨.store _, _⟩ :: rest | asked, ⟨.stamp, _⟩ :: rest => Explains manner asked rest

/-- Systems outside reply in a manner; `asked` tells from the surroundings what was asked of them so
far. -/
structure Governs {σ : Type} (manner : Manner) (asked : σ → List EffectCall)
    (answer : (call : Call) → σ → call.Reply × σ) :
    Prop where
  reply : ∀ call s, (answer (.effect call) s).1 = manner (asked s) call
  effect : ∀ call s, asked (answer (.effect call) s).2 = asked s ++ [call]
  store : ∀ call s, asked (answer (.store call) s).2 = asked s
  stamp : ∀ s, asked (answer .stamp s).2 = asked s

/-- Surroundings of nothing but systems outside that reply in a manner, and a clock. -/
def surroundings (manner : Manner) (clock : List EffectCall → Fresh) :
    (call : Call) → List EffectCall → call.Reply × List EffectCall
  | .store _, asked => (.error (.repository "unavailable"), asked)
  | .effect call, asked => (manner asked call, asked ++ [call])
  | .stamp, asked => (clock asked, asked)

theorem governs_surroundings (manner : Manner) (clock : List EffectCall → Fresh) :
    manner.Governs (fun asked => asked) (manner.surroundings clock) where
  reply _ _ := rfl
  effect _ _ := rfl
  store _ _ := rfl
  stamp _ := rfl

variable {α σ : Type} {manner : Manner} {asked : List EffectCall}

theorem explains_append {before after : List Exchange} :
    manner.Explains asked (before ++ after) ↔
      manner.Explains asked before ∧
      manner.Explains (asked ++ before.filterMap Exchange.asked?) after := by
  induction before generalizing asked with
  | nil => simp [Explains]
  | cons exchange before ih =>
    obtain ⟨call | call | _, reply⟩ := exchange
    · simp only [List.cons_append, Explains, ih]
      rfl
    · simp only [List.cons_append, Explains, ih, and_assoc, List.append_assoc, List.nil_append]
      rfl
    · simp only [List.cons_append, Explains, ih]
      rfl

theorem explains_of_isObliging (asked : List EffectCall) {exchanges : List Exchange}
    (h : ∀ exchange ∈ exchanges, exchange.IsObliging) :
    Explains (fun _ call => .returned call.rehearsedReply) asked exchanges := by
  induction exchanges generalizing asked with
  | nil => trivial
  | cons exchange rest ih =>
    obtain ⟨hobliging, hrest⟩ := List.forall_mem_cons.1 h
    obtain ⟨call | call | _, reply⟩ := exchange
    · exact ih _ hrest
    · exact ⟨hobliging, ih _ hrest⟩
    · exact ih _ hrest

theorem Governs.explains_transcript {told : σ → List EffectCall}
    {answer : (call : Call) → σ → call.Reply × σ} (h : manner.Governs told answer) (p : Program α)
    (state : σ) :
    manner.Explains (told state) (p.transcript answer state) := by
  induction p generalizing state with
  | done outcome => trivial
  | ask call next ih =>
    have hrest := ih (answer call state).1 (answer call state).2
    cases call with
    | store call => rwa [h.store] at hrest
    | effect call => exact ⟨h.reply call state, by rwa [h.effect] at hrest⟩
    | stamp => rwa [h.stamp] at hrest

end Manner

/-- What systems outside are told in a manner settles what a program does that only talks to
them. -/
theorem Program.Runs.unique_of_explains {α : Type} {manner : Manner} {asked : List EffectCall}
    {p : Program α} (hp : p.CallsOnly Call.IsEffect) {exchanges others : List Exchange}
    {ended other : Outcome α} (h : p.Runs exchanges ended) (hother : p.Runs others other)
    (hexplains : manner.Explains asked exchanges) (hexplains' : manner.Explains asked others) :
    exchanges = others ∧ ended = other := by
  induction h generalizing others asked with
  | done outcome =>
    obtain ⟨rfl, rfl⟩ := runs_done.1 hother
    exact ⟨rfl, rfl⟩
  | @ask call next exchanges ended reply rest ih =>
    obtain ⟨reply', rest', rfl, hrest⟩ := runs_ask.1 hother
    cases call with
    | store call => exact hp.1.elim
    | stamp => exact hp.1.elim
    | effect call =>
      obtain ⟨rfl, hexchanges⟩ := hexplains
      obtain ⟨rfl, hrest'⟩ := hexplains'
      obtain ⟨rfl, rfl⟩ := ih (hp.2 _) hrest hexchanges hrest'
      exact ⟨rfl, rfl⟩

end LeadAutomation
