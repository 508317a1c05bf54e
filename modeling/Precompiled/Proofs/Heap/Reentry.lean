import Precompiled.Proofs.Heap.Departure

/-! Calls within calls. The engine may call back before it answers: while a question of
one call is open it carries out further calls on the same heap, each of which may ask
and be interrupted in turn. The log of such a run lists the calls within it in the
order in which they begin, each with the state that it found. -/
namespace Precompiled.Heap

variable {image : Image} {admits ends : Call → Prop} {kept : State → Prop} {α : Type}
  {start before after state : State} {call : Call}

/-- The calls within a run, in the order in which they begin, with the states they
found. -/
abbrev Log : Type :=
  List (Call × State)

/-- How a dialogue of a call may go on to its end when the engine, before it answers,
carries out calls that `admits` allows. The collector may move objects at any time. -/
inductive Runs (image : Image) (admits : Call → Prop) :
    {α : Type} → Dialogue Engine.signature Cell α → Log → α → Cell → Prop where
  | done {α : Type} (result : α) (cell : Cell) :
    Runs image admits (.done result cell) [] result cell
  | answer {α : Type} {request : Engine.Request} {cell later last : Cell}
    {resume : request.Answer → Cell → Dialogue Engine.signature Cell α} {log : Log} {result : α}
    (answer : request.Answer) (beside : cell.state.Beside later.state)
    (onward : Runs image admits (resume answer later) log result last) :
    Runs image admits (.ask request cell resume) log result last
  | call {α : Type} {request : Engine.Request} {cell begun replied last : Cell}
    {resume : request.Answer → Cell → Dialogue Engine.signature Cell α} {inner log : Log}
    {call : Call} {reply : call.Reply} {result : α}
    (admitted : admits call) (beside : cell.state.Beside begun.state)
    (within : Runs image admits (perform image call begun) inner reply replied)
    (onward : Runs image admits (.ask request replied resume) log result last) :
    Runs image admits (.ask request cell resume) ((call, begun.state) :: (inner ++ log)) result last

/-! ## Up to a call -/

/-- The property holds whenever a call of the log begins, and at the end, up to the first
call that ends it. -/
def KeptUntil (ends : Call → Prop) (kept : State → Prop) : Log → State → Prop
  | [], last => kept last
  | (call, state) :: rest, last => kept state ∧ (¬ends call → KeptUntil ends kept rest last)

theorem KeptUntil.append {first second : Log} {middle last : State}
    (early : KeptUntil ends kept first middle)
    (late : kept middle → KeptUntil ends kept second last) :
    KeptUntil ends kept (first ++ second) last := by
  induction first with
  | nil => exact late early
  | cons entry rest ih => exact ⟨early.1, fun other => ih (early.2 other)⟩

/-- Before the first call that ends it the property holds. -/
theorem KeptUntil.holds {front back : Log} {last : State}
    (stays : KeptUntil ends kept (front ++ (call, state) :: back) last)
    (none : ∀ entry ∈ front, ¬ends entry.1) : kept state := by
  induction front with
  | nil => exact stays.1
  | cons entry rest ih =>
    apply ih (stays.2 (none entry List.mem_cons_self))
    exact fun other among => none other (List.mem_cons_of_mem _ among)

/-- What no call ends holds at the end. -/
theorem KeptUntil.last {log : Log} {last : State}
    (stays : KeptUntil (fun _ => False) kept log last) :
    kept last := by
  induction log with
  | nil => exact stays
  | cons entry rest ih => exact ih (stays.2 id)

/-! ## Through a run -/

/-- The conduct of a call that puts up with everything while a question is open. -/
abbrev openConduct (image : Image) (call : Call) : Conduct Engine.signature Cell :=
  callConduct image call fun _ _ => True

section Through

variable {change : Engine.signature.Heard → State → State → Prop}
  {question : Engine.Request → State → State → Prop} {heard : Engine.signature.Heard}
  {dialogue : Dialogue Engine.signature Cell α} {log : Log} {result : α} {last : Cell}

/-- What neither the dialogue nor the calls within it break, up to the first that ends it,
is kept so far. -/
theorem Runs.until (run : Runs image admits dialogue log result last)
    (beside : ∀ before after, kept before → before.Beside after → kept after)
    (within : ∀ call, admits call → ¬ends call →
      (openConduct image call).Spares fun cell => kept cell.state)
    (spares : (stateConduct change question fun _ _ => True).Spares fun cell => kept cell.state)
    (ready : dialogue.Ready (stateConduct change question fun _ _ => True) (fun _ _ _ => True)
      heard)
    (holds : kept dialogue.present.state) : KeptUntil ends kept log last.state := by
  induction run generalizing heard change question with
  | done result cell => exact holds
  | @answer _ request cell later last resume log result answer drifted onward ih =>
    have obeys := ready (fun _ _ => True) answer later (fun _ _ _ => trivial) trivial trivial
    exact ih spares obeys.ready (obeys.spares spares (beside _ _ holds drifted))
  | @call _ request cell begun replied last resume inner log call reply result admitted drifted run
      onward innerStays stays =>
    have found := beside _ _ holds drifted
    refine ⟨found, fun other => ?_⟩
    have own := within call admitted other
    have obeys : (perform image call begun).Obeys (openConduct image call) (fun _ _ _ => True)
        heard begun := perform_follows call heard begun
    exact (innerStays own obeys.ready (obeys.spares own found)).append (stays spares ready)

theorem openConduct_grows (image : Image) (call : Call) (start : State) :
    (openConduct image call).Spares fun cell => start.Grows cell.state :=
  spares_of (fun _ _ _ since change => since.trans change.touches.grows)
    fun _ _ _ since asked => since.trans asked.grows

/-- States grow throughout a run. -/
theorem Runs.grows (run : Runs image admits dialogue log result last)
    (ready : dialogue.Ready (openConduct image call) (fun _ _ _ => True) heard) :
    dialogue.present.state.Grows last.state := by
  have kept : KeptUntil (fun _ => False) (fun state => dialogue.present.state.Grows state) log
      last.state :=
    run.until (fun _ _ since drifted => since.trans drifted.grows)
      (fun call _ _ => openConduct_grows image call _) (openConduct_grows image call _) ready
      (.refl _)
  exact kept.last

theorem Runs.grows_since {cell : Cell} {reply : call.Reply}
    (run : Runs image admits (perform image call cell) log reply last) :
    cell.state.Grows last.state := by
  have obeys : (perform image call cell).Obeys (openConduct image call) (fun _ _ _ => True)
      (fun _ _ => True) cell := perform_follows call _ cell
  exact (obeys.spares (openConduct_grows image call cell.state) (.refl _)).trans
    (run.grows obeys.ready)

/-- What is attained as long as states grow is attained in spite of the calls within. -/
theorem Runs.attains_ready {post : α → State → Prop}
    (run : Runs image admits dialogue log result last)
    (ready : dialogue.Ready (Conduct.free (overState State.Grows))
      (fun _ value cell => post value cell.state) heard) : post result last.state := by
  induction run generalizing heard with
  | done result cell => exact ready
  | answer answer drifted onward ih =>
    have obeys := ready (fun _ _ => True) answer _ (fun _ _ _ => trivial) trivial drifted.grows
    exact ih obeys.ready
  | call admitted drifted within onward innerReady onwardReady =>
    apply onwardReady
    intro later answer after more told grown
    exact ready later answer after more told
      ((drifted.grows.trans within.grows_since).trans grown)

theorem Runs.attains {operation : Operation α} {pre : State → Prop} {post : α → State → Prop}
    {cell : Cell} (attains : Attains State.Grows pre operation post) (holds : pre cell.state)
    (run : Runs image admits (operation cell) log result last) : post result last.state :=
  run.attains_ready (attains (fun _ _ => True) cell holds).ready

/-- Every call of the log is carried out within the run, and states only grow from its
reply on. -/
theorem Runs.carried (run : Runs image admits dialogue log result last)
    (ready : dialogue.Ready (openConduct image call) (fun _ _ _ => True) heard) {other : Call}
    (among : (other, state) ∈ log) : ∃ begun inner reply replied, begun.state = state ∧
      Runs image admits (perform image other begun) inner reply replied ∧
        replied.state.Grows last.state := by
  induction run generalizing heard call with
  | done result cell => cases among
  | @answer _ request cell later last resume log result answer drifted onward ih =>
    have obeys := ready (fun _ _ => True) answer later (fun _ _ _ => trivial) trivial trivial
    exact ih obeys.ready among
  | @call _ request cell begun replied last resume inner log begins reply result admitted drifted
      within onward inside outside =>
    have since : replied.state.Grows last.state := onward.grows ready
    have obeys : (perform image begins begun).Obeys (openConduct image begins) (fun _ _ _ => True)
        heard begun := perform_follows begins heard begun
    rcases List.mem_cons.mp among with own | among
    · cases own
      exact ⟨begun, inner, reply, replied, rfl, within, since⟩
    · rcases List.mem_append.mp among with early | late
      · obtain ⟨first, more, answer, ended, same, run, grown⟩ := inside obeys.ready early
        exact ⟨first, more, answer, ended, same, run, grown.trans since⟩
      · exact outside ready late

/-- What the calls within a run condemn is dead at its end. -/
theorem Runs.condemned (run : Runs image admits dialogue log result last)
    (ready : dialogue.Ready (openConduct image call) (fun _ _ _ => True) heard) {other : Call}
    {codeId : Nat} (among : (other, state) ∈ log) (condemned : Condemns image state other codeId) :
    last.state.Dead codeId := by
  obtain ⟨begun, inner, reply, replied, same, within, since⟩ := run.carried ready among
  have fell := within.attains (perform_condemns (fun _ _ grown => grown) image other state) same
  exact since.dead (fell codeId condemned)

/-- States have grown since a call of the log began. -/
theorem Runs.grown (run : Runs image admits dialogue log result last)
    (ready : dialogue.Ready (openConduct image call) (fun _ _ _ => True) heard) {other : Call}
    (among : (other, state) ∈ log) : state.Grows last.state := by
  obtain ⟨begun, inner, reply, replied, rfl, within, since⟩ := run.carried ready among
  exact within.grows_since.trans since

end Through

end Precompiled.Heap
