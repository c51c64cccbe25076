import LeadAutomation.Proofs.Runs
import Mathlib.Data.List.Induction

/-!
# Interleavings

Several programs that run at once share their surroundings and take turns in no particular order,
one call at a time. A `Scene` is how far each of them has come; a schedule says whose turn it is,
again and again, and decides everything else. What is true after every schedule is true at every
moment of every way in which the programs can be interleaved.

Each program sees nothing of the others but the replies it gets. So taken by itself it follows a run
of its own, and what it may call next can be told from the exchanges that it has had:
`Program.CallsAfter`, which holds in a scene as it does alone.
-/

namespace LeadAutomation

namespace Program

variable {α β : Type}

/-- `p.ComesTo exchanges q` says that `p`, given the replies in `exchanges`, makes the calls in it
and goes on as `q`. -/
inductive ComesTo : Program α → List Exchange → Program α → Prop
  | start (p : Program α) : ComesTo p [] p
  | ask {call : Call} {next : call.Reply → Program α} {exchanges : List Exchange} {q : Program α}
    (reply : call.Reply)
      (rest : ComesTo (next reply) exchanges q) :
        ComesTo (.ask call next) (⟨call, reply⟩ :: exchanges) q

namespace ComesTo

variable {p q : Program α} {exchanges : List Exchange}

theorem snoc {call : Call} {next : call.Reply → Program α}
    (h : p.ComesTo exchanges (.ask call next)) (reply : call.Reply) :
    p.ComesTo (exchanges ++ [⟨call, reply⟩]) (next reply) := by
  generalize hq : Program.ask call next = q at h
  induction h with
  | start p =>
    subst hq
    exact .ask reply (.start _)
  | ask earlier rest ih => exact .ask earlier (ih hq)

theorem runs {ended : Outcome α} (h : p.ComesTo exchanges (.done ended)) :
    p.Runs exchanges ended := by
  generalize hq : Program.done ended = q at h
  induction h with
  | start p =>
    subst hq
    exact .done ended
  | ask reply rest ih => exact .ask reply (ih hq)

end ComesTo

/-- Each call that a program makes, whatever it is told, is allowed after the exchanges that it has
had by then; `had` are those from before. -/
def CallsAfter (allowed : List Exchange → Call → Prop) (had : List Exchange) : Program α → Prop
  | .done _ => True
  | .ask call next =>
    allowed had call ∧ ∀ reply, CallsAfter allowed (had ++ [⟨call, reply⟩]) (next reply)

namespace CallsAfter

variable {allowed : List Exchange → Call → Prop} {had : List Exchange}

theorem pure (a : α) : CallsAfter allowed had (Pure.pure a : Program α) := trivial

/-- What follows need only be looked at for what can be returned, and after the exchanges that led
there. -/
theorem bind {p : Program α} {f : α → Program β} (hp : CallsAfter allowed had p)
    (hf : ∀ exchanges a, p.Runs exchanges (.returned a) →
      CallsAfter allowed (had ++ exchanges) (f a)) :
    CallsAfter allowed had (p >>= f) := by
  induction p generalizing had with
  | done outcome =>
    cases outcome with
    | returned a =>
      have ha := hf [] a (.done _)
      rwa [List.append_nil] at ha
    | failed error => trivial
    | crashed text => trivial
  | ask call next ih =>
    refine ⟨hp.1, fun reply => ih reply (hp.2 reply) fun exchanges a h => ?_⟩
    rw [List.append_assoc]
    exact hf _ a (.ask reply h)

theorem of_callsOnly {p : Program α} (hp : p.CallsOnly fun call => ∀ had, allowed had call) :
    CallsAfter allowed had p := by
  induction p generalizing had with
  | done outcome => trivial
  | ask call next ih => exact ⟨hp.1 had, fun reply => ih reply (hp.2 reply)⟩

theorem callsOnly {others : Call → Prop} (h : ∀ had call, allowed had call → others call)
    {p : Program α} (hp : CallsAfter allowed had p) : p.CallsOnly others := by
  induction p generalizing had with
  | done outcome => trivial
  | ask call next ih => exact ⟨h _ _ hp.1, fun reply => ih reply (hp.2 reply)⟩

theorem attempt {p : Program α} (hp : CallsAfter allowed had p) :
    CallsAfter allowed had p.attempt := by
  induction p generalizing had with
  | done outcome => trivial
  | ask call next ih => exact ⟨hp.1, fun reply => ih reply (hp.2 reply)⟩

theorem stamp_bind {f : Fresh → Program α} (hstamp : allowed had .stamp)
    (hf : ∀ fresh, CallsAfter allowed (had ++ [⟨.stamp, fresh⟩]) (f fresh)) :
    CallsAfter allowed had (stamp >>= f) :=
  ⟨hstamp, hf⟩

theorem store_bind {call : StoreCall} {f : call.Result → Program α}
    (hcall : allowed had (.store call))
    (hf : ∀ result, CallsAfter allowed (had ++ [⟨.store call, .ok result⟩]) (f result)) :
    CallsAfter allowed had (store call >>= f) := by
  refine ⟨hcall, fun reply => ?_⟩
  cases reply with
  | ok result => exact hf result
  | error error => trivial

theorem store {call : StoreCall} (hcall : allowed had (.store call)) :
    CallsAfter allowed had (Program.store call) :=
  ⟨hcall, fun reply => by cases reply <;> trivial⟩

theorem of_comesTo {p q : Program α} {exchanges : List Exchange} (hp : CallsAfter allowed had p)
    (h : p.ComesTo exchanges q) : CallsAfter allowed (had ++ exchanges) q := by
  induction h generalizing had with
  | start p => rwa [List.append_nil]
  | ask reply rest ih =>
    rw [List.append_cons]
    exact ih (hp.2 reply)

end CallsAfter

end Program

/-- Programs that run at once, each as far as it has come, and the state that they share. -/
structure Scene (ι α σ : Type) where
  left : ι → Program α
  state : σ

namespace Scene

variable {ι α σ : Type} [DecidableEq ι] (answer : (call : Call) → σ → call.Reply × σ)

/-- What a program calls in its turn, if it is not done yet, and the reply to it. -/
def exchange? (scene : Scene ι α σ) (i : ι) : Option Exchange :=
  match scene.left i with
  | .done _ => none
  | .ask call _ => some ⟨call, (answer call scene.state).1⟩

/-- A program takes its turn; one that is done lets it pass. -/
def turn (scene : Scene ι α σ) (i : ι) : Scene ι α σ :=
  match scene.left i with
  | .done _ => scene
  | .ask call next =>
    { left := fun j => if j = i then next (answer call scene.state).1 else scene.left j
      state := (answer call scene.state).2 }

/-- The scene after some turns. -/
def after (scene : Scene ι α σ) (schedule : List ι) : Scene ι α σ :=
  schedule.foldl (turn answer) scene

/-- The exchanges in some turns, each with the program that has it. -/
def history (scene : Scene ι α σ) : List ι → List (ι × Exchange)
  | [] => []
  | i :: rest => (scene.exchange? answer i).toList.map (i, ·) ++ history (scene.turn answer i) rest

/-- The exchanges that one of the programs has in a history. -/
def own (i : ι) (history : List (ι × Exchange)) : List Exchange :=
  history.filterMap fun entry => if entry.1 = i then some entry.2 else none

variable {answer} {scene : Scene ι α σ} {i j : ι} {schedule : List ι}

@[simp]
theorem after_nil : scene.after answer [] = scene := rfl

theorem after_cons :
    scene.after answer (i :: schedule) = (scene.turn answer i).after answer schedule := rfl

theorem after_append {later : List ι} :
    scene.after answer (schedule ++ later) = (scene.after answer schedule).after answer later :=
  List.foldl_append

theorem history_append {later : List ι} : scene.history answer (schedule ++ later) =
    scene.history answer schedule ++ (scene.after answer schedule).history answer later := by
  induction schedule generalizing scene with
  | nil => rfl
  | cons i rest ih =>
    rw [List.cons_append, history, history, ih, List.append_assoc]
    rfl

theorem own_append {before after : List (ι × Exchange)} :
    own i (before ++ after) = own i before ++ own i after :=
  List.filterMap_append

theorem mem_own {exchange : Exchange} {history : List (ι × Exchange)} :
    exchange ∈ own i history ↔ (i, exchange) ∈ history := by
  rw [own, List.mem_filterMap]
  constructor
  · rintro ⟨⟨j, other⟩, hentry, hsome⟩
    obtain ⟨rfl, heq⟩ := Option.ite_none_right_eq_some.1 hsome
    obtain rfl := Option.some.inj heq
    exact hentry
  · intro hmem
    exact ⟨_, hmem, if_pos rfl⟩

/-! ### One turn -/

theorem turn_of_done {ended : Outcome α} (h : scene.left i = .done ended) :
    scene.turn answer i = scene := by
  unfold turn
  rw [h]

theorem history_of_done {ended : Outcome α} (h : scene.left i = .done ended) :
    scene.history answer [i] = [] := by
  simp [history, exchange?, h]

section Ask

variable {call : Call} {next : call.Reply → Program α}

theorem turn_of_ask (h : scene.left i = .ask call next) : scene.turn answer i =
    { left := fun j => if j = i then next (answer call scene.state).1 else scene.left j
      state := (answer call scene.state).2 } := by
  unfold turn
  rw [h]

theorem left_turn (h : scene.left i = .ask call next) :
    (scene.turn answer i).left i = next (answer call scene.state).1 := by
  rw [turn_of_ask h]
  exact if_pos rfl

theorem state_turn (h : scene.left i = .ask call next) :
    (scene.turn answer i).state = (answer call scene.state).2 := by
  rw [turn_of_ask h]

theorem left_turn_of_ne (hne : j ≠ i) : (scene.turn answer i).left j = scene.left j := by
  unfold turn
  split
  · rfl
  · exact if_neg hne

theorem left_after_of_notMem (h : j ∉ schedule) :
    (scene.after answer schedule).left j = scene.left j := by
  induction schedule generalizing scene with
  | nil => rfl
  | cons i schedule ih =>
    obtain ⟨hne, hrest⟩ := List.ne_and_not_mem_of_not_mem_cons h
    rw [after_cons, ih hrest, left_turn_of_ne hne]

theorem history_of_ask (h : scene.left i = .ask call next) :
    scene.history answer [i] = [(i, ⟨call, (answer call scene.state).1⟩)] := by
  simp [history, exchange?, h]

theorem mem_history_of_ask (h : scene.left i = .ask call next) :
    (i, ⟨call, (answer call scene.state).1⟩) ∈ scene.history answer [i] := by
  rw [history_of_ask h]
  exact List.mem_singleton_self _

end Ask

/-! ### All turns -/

/-- Each program follows a run of its own. -/
theorem comesTo (answer : (call : Call) → σ → call.Reply × σ) (scene : Scene ι α σ)
    (schedule : List ι) (i : ι) :
    (scene.left i).ComesTo (own i (scene.history answer schedule))
      ((scene.after answer schedule).left i) := by
  induction schedule using List.reverseRecOn with
  | nil => exact .start _
  | append_singleton earlier j ih =>
    rw [history_append, own_append, after_append]
    cases hleft : (scene.after answer earlier).left j with
    | done ended =>
      rw [history_of_done hleft, after_cons, turn_of_done hleft]
      exact (List.append_nil _).symm ▸ ih
    | ask call next =>
      rw [history_of_ask hleft, after_cons, after_nil]
      by_cases heq : j = i
      · obtain rfl := heq
        rw [left_turn hleft]
        rw [hleft] at ih
        simpa [own] using ih.snoc _
      · rw [left_turn_of_ne (Ne.symm heq)]
        simpa [own, heq] using ih

theorem exists_turn {before after : List (ι × Exchange)} {exchange : Exchange}
    (h : scene.history answer schedule = before ++ (i, exchange) :: after) :
    ∃ earlier later next, schedule = earlier ++ i :: later ∧ scene.history answer earlier = before ∧
      (scene.after answer earlier).left i = .ask exchange.call next ∧
      exchange.reply = (answer exchange.call (scene.after answer earlier).state).1 ∧
      (scene.after answer (earlier ++ [i])).history answer later = after := by
  induction schedule generalizing scene before with
  | nil => simp [history] at h
  | cons j rest ih =>
    change scene.history answer ([j] ++ rest) = _ at h
    rw [history_append] at h
    cases hleft : scene.left j with
    | done ended =>
      rw [history_of_done hleft, after_cons, after_nil, turn_of_done hleft] at h
      obtain ⟨earlier, later, next, rfl, hbefore, hasks, hreply, hafter⟩ := ih h
      have hturn : ∀ turns, scene.after answer (j :: turns) = scene.after answer turns := by
        intro turns
        rw [after_cons, turn_of_done hleft]
      refine ⟨j :: earlier, later, next, rfl, ?_, ?_, ?_, ?_⟩
      · change scene.history answer ([j] ++ earlier) = _
        rw [history_append, history_of_done hleft, after_cons, after_nil, turn_of_done hleft]
        exact hbefore
      · rwa [hturn]
      · rwa [hturn]
      · rw [List.cons_append, hturn]
        exact hafter
    | ask call next =>
      rw [history_of_ask hleft, List.singleton_append] at h
      cases before with
      | nil =>
        obtain ⟨hentry, hafter⟩ := List.cons.inj h
        obtain ⟨rfl, rfl⟩ := Prod.mk.inj hentry
        exact ⟨[], rest, next, rfl, rfl, hleft, rfl, hafter⟩
      | cons entry before =>
        obtain ⟨rfl, hrest⟩ := List.cons.inj h
        obtain ⟨earlier, later, next', rfl, hbefore, hasks, hreply, hafter⟩ := ih hrest
        refine ⟨j :: earlier, later, next', rfl, ?_, hasks, hreply, hafter⟩
        change scene.history answer ([j] ++ earlier) = _
        rw [history_append, history_of_ask hleft, List.singleton_append]
        exact congrArg _ hbefore

/-- In a scene, too, each call is allowed after the exchanges that the program has had. -/
theorem allowed_of_ask {allowed : List Exchange → Call → Prop}
    (hallowed : (scene.left i).CallsAfter allowed []) {call : Call} {next : call.Reply → Program α}
    (h : (scene.after answer schedule).left i = .ask call next) :
    allowed (own i (scene.history answer schedule)) call := by
  have hrest := hallowed.of_comesTo (scene.comesTo answer schedule i)
  rw [h] at hrest
  exact hrest.1

end Scene

end LeadAutomation
