import Precompiled.Proofs.Dialogue.Runs
import Precompiled.Proofs.Got.Slots
import Precompiled.Rehearsal.Table

/-! Tables of references under callbacks that change them. While a callback runs, it and
everybody else may set and clear any slot of the table: the one at hand, those before it
and those to come. What is written once the callback has answered depends on what the
slot holds by then, and it concerns this slot only. -/
namespace Precompiled.Got

open Rehearsal

variable {S : Signature} {σ α : Type} {part : Part (Got α) σ} {index : Nat}
  {asked : List S.Request} {start last : σ}

/-- One slot of the table was made to hold `entry`, and nothing else changed. -/
structure Writes (part : Part (Got α) σ) (index : Nat) (entry : Option α) (during after : σ) :
    Prop where
  slot : (part.get after).get index = entry
  others : ∀ other, index ≠ other → (part.get after).get other = (part.get during).get other
  size : (part.get after).size = (part.get during).size
  rest : after = part.set (part.get after) during

section Writing

variable (lawful : ∀ table state, part.get (part.set table state) = table)
  {entry : Option α} {during after : σ} {table : Got α}
include lawful

/-- Storing a table is such a change if the table differs from the old one in no other
slot. -/
theorem writes_set (slot : table.get index = entry)
    (others : ∀ other, index ≠ other → table.get other = (part.get during).get other)
    (size : table.size = (part.get during).size) :
    Writes part index entry during (part.set table during) where
  slot := by rw [lawful, slot]
  others other apart := by rw [lawful, others other apart]
  size := by rw [lawful, size]
  rest := by rw [lawful]

omit lawful in
/-- There is only one way to make a slot hold something. -/
theorem Writes.unique {other : σ} (one : Writes part index entry during after)
    (two : Writes part index entry during other) : after = other := by
  have same : part.get after = part.get other := by
    refine ext_get (one.size.trans two.size.symm) fun slot => ?_
    by_cases own : index = slot
    · subst own
      rw [one.slot, two.slot]
    · rw [one.others slot own, two.others slot own]
  rw [one.rest, two.rest, same]

/-- A value that replaces another one is written unless the slot holds a third. -/
theorem writes_replaceIf [DecidableEq α] (index : Nat) (seen : α) (answer : Option α)
    (during : σ) :
    Writes part index
      (if (part.get during).get index = some seen then answer else (part.get during).get index)
      during (part.set (replaceIf index seen answer (part.get during)) during) :=
  writes_set lawful (replaceIf_slot ..) (fun _ apart => replaceIf_get_ne apart) (replaceIf_size ..)

/-- A value that fills a null slot is written unless the slot holds one. -/
theorem writes_setIfNull (inside : index < (part.get during).size) (value : α) :
    Writes part index (((part.get during).get index).or (some value)) during
      (part.set (setIfNull index value (part.get during)).2 during) :=
  writes_set lawful (setIfNull_slot inside value) (fun _ apart => setIfNull_get_ne apart)
    (setIfNull_size ..)

end Writing

/-! ## Resolving a slot -/

section Resolving

variable {resolve : Action S σ (Option α)} {result : Option α}

/-- How a slot comes to be resolved, with the questions asked on the way: what the
caller is told, and where it ends. -/
inductive Resolution (part : Part (Got α) σ) (index : Nat) (resolve : Action S σ (Option α))
    (start : σ) : List S.Request → Option α → σ → Prop where
  /-- The slot holds a value. Nobody is asked for one. -/
  | held {value : α} (found : (part.get start).get index = some value) :
    Resolution part index resolve start [] (some value) start
  /-- The slot is not in the table. Nobody is asked for a value. -/
  | outside (beyond : (part.get start).size ≤ index) :
    Resolution part index resolve start [] none start
  /-- The callback has no value. The caller is told so, whatever the slot holds by then. -/
  | declined {asked : List S.Request} {last : σ} (null : (part.get start).get index = none)
    (inside : index < (part.get start).size) (ran : (resolve start).Runs asked none last) :
    Resolution part index resolve start asked none last
  /-- The callback has a value. A slot that holds one by then keeps it, and the caller is
  told what the slot holds. -/
  | answered {asked : List S.Request} {value : α} {during last : σ}
    (null : (part.get start).get index = none) (inside : index < (part.get start).size)
    (ran : (resolve start).Runs asked (some value) during)
    (kept : Writes part index (((part.get during).get index).or (some value)) during last) :
    Resolution part index resolve start asked ((part.get last).get index) last

/-- What is told of a slot is what it then holds, unless the callback had no value. -/
theorem Resolution.told (resolution : Resolution part index resolve start asked result last) :
    result = (part.get last).get index ∨
      result = none ∧ (part.get start).get index = none ∧ (resolve start).Runs asked none last := by
  cases resolution with
  | held found => exact .inl found.symm
  | outside beyond => exact .inl (get_outside beyond).symm
  | declined null inside ran => exact .inr ⟨rfl, null, ran⟩
  | answered => exact .inl rfl

theorem resolution_known {value : α} (found : (part.get start).get index = some value) :
    Resolution part index resolve start asked result last ↔
      asked = [] ∧ result = some value ∧ last = start := by
  constructor
  · intro resolution
    cases resolution with
    | held known => exact ⟨rfl, known.symm.trans found, rfl⟩
    | outside beyond => exact absurd (get_inside found) (Nat.not_lt.mpr beyond)
    | declined null => cases found.symm.trans null
    | answered null => cases found.symm.trans null
  · rintro ⟨rfl, rfl, rfl⟩
    exact .held found

theorem resolution_beyond (beyond : (part.get start).size ≤ index) :
    Resolution part index resolve start asked result last ↔
      asked = [] ∧ result = none ∧ last = start := by
  have outside : ¬index < (part.get start).size := Nat.not_lt.mpr beyond
  constructor
  · intro resolution
    cases resolution with
    | held found => exact absurd (get_inside found) outside
    | outside => exact ⟨rfl, rfl, rfl⟩
    | declined _ inside => exact absurd inside outside
    | answered _ inside => exact absurd inside outside
  · rintro ⟨rfl, rfl, rfl⟩
    exact .outside beyond

/-- A null slot of the table, whose size did not change, is resolved by storing the value of
the callback. -/
theorem resolution_asks (lawful : ∀ table state, part.get (part.set table state) = table)
    (sized : (part.get last).size = (part.get start).size)
    (null : (part.get start).get index = none) (inside : index < (part.get start).size) :
    Resolution part index resolve start asked result last ↔
      ∃ answer during, (resolve start).Runs asked answer during ∧
        match answer with
        | none => result = none ∧ last = during
        | some value => result = (setIfNull index value (part.get during)).1 ∧
            last = part.set (setIfNull index value (part.get during)).2 during := by
  constructor
  · intro resolution
    cases resolution with
    | held found => cases null.symm.trans found
    | outside beyond => exact absurd inside (Nat.not_lt.mpr beyond)
    | declined _ _ ran => exact ⟨none, last, ran, rfl, rfl⟩
    | @answered _ value during _ _ _ ran kept =>
      have there : index < (part.get during).size := (kept.size.symm.trans sized) ▸ inside
      refine ⟨some value, during, ran, ?_, kept.unique (writes_setIfNull lawful there value)⟩
      rw [kept.slot, setIfNull_told there]
  · rintro ⟨answer, during, ran, stored⟩
    cases answer with
    | none =>
      obtain ⟨rfl, rfl⟩ := stored
      exact .declined null inside ran
    | some value =>
      obtain ⟨rfl, rfl⟩ := stored
      rw [lawful, setIfNull_size] at sized
      have kept := writes_setIfNull lawful (sized ▸ inside) value
      rw [setIfNull_told (sized ▸ inside), ← kept.slot]
      exact .answered null inside ran kept

theorem getOrResolve_known {value : α} (found : (part.get start).get index = some value) :
    (getOrResolve part index resolve start).Runs asked result last ↔
      asked = [] ∧ result = some value ∧ last = start := by
  simp [getOrResolve, found]

theorem getOrResolve_beyond (beyond : (part.get start).size ≤ index) :
    (getOrResolve part index resolve start).Runs asked result last ↔
      asked = [] ∧ result = none ∧ last = start := by
  simp [getOrResolve, get_outside beyond, beyond]

/-- The callback is run for a null slot of the table, and its value is stored there. -/
theorem getOrResolve_asks (null : (part.get start).get index = none)
    (inside : index < (part.get start).size) :
    (getOrResolve part index resolve start).Runs asked result last ↔
      ∃ answer during, (resolve start).Runs asked answer during ∧
        match answer with
        | none => result = none ∧ last = during
        | some value => result = (setIfNull index value (part.get during)).1 ∧
            last = part.set (setIfNull index value (part.get during)).2 during := by
  simp only [getOrResolve, Action.bind_apply, Action.read_apply, Dialogue.bind_done, null,
    Nat.not_le.mpr inside, ↓reduceIte, Dialogue.runs_bind]
  constructor
  · rintro ⟨early, answer, during, late, ran, stored, rfl⟩
    cases answer with
    | none =>
      obtain ⟨rfl, rfl, rfl⟩ := Dialogue.runs_done.mp stored
      exact ⟨none, _, by rwa [List.append_nil], rfl, rfl⟩
    | some value =>
      obtain ⟨rfl, rfl, rfl⟩ := Dialogue.runs_done.mp stored
      exact ⟨some value, during, by rwa [List.append_nil], rfl, rfl⟩
  · rintro ⟨answer, during, ran, stored⟩
    refine ⟨asked, answer, during, [], ran, ?_, (List.append_nil asked).symm⟩
    cases answer with
    | none =>
      obtain ⟨rfl, rfl⟩ := stored
      exact .done _ _
    | some value =>
      obtain ⟨rfl, rfl⟩ := stored
      exact .done _ _

/-- A slot of a table, whose size never changes, is resolved in one of these ways, whatever
the callback and everybody else do to the table in the meantime. The caller is told what
the slot then holds, unless the callback had no value. -/
theorem getOrResolve_runs (lawful : ∀ table state, part.get (part.set table state) = table)
    (sized : (part.get last).size = (part.get start).size) :
    ((getOrResolve part index resolve start).Runs asked result last ↔
      Resolution part index resolve start asked result last) ∧
    (Resolution part index resolve start asked result last →
      result = (part.get last).get index ∨
        result = none ∧ (part.get start).get index = none ∧
          (resolve start).Runs asked none last) := by
  refine ⟨?_, Resolution.told⟩
  cases found : (part.get start).get index with
  | some value => rw [getOrResolve_known found, resolution_known found]
  | none =>
    by_cases inside : index < (part.get start).size
    · rw [getOrResolve_asks found inside, resolution_asks lawful sized found inside]
    · have beyond : (part.get start).size ≤ index := Nat.not_lt.mp inside
      rw [getOrResolve_beyond beyond, resolution_beyond beyond]

/-- A callback that gives the first slot a value and then answers. -/
def hasty (answer : Option Nat) : Action .silent (WatchedTable Nat) (Option Nat) :=
  Action.step fun watched =>
    (answer, { table := (setIfNull 0 5 watched.table).2, called := true })

/-- The caller is told of the value that the slot was given on the way. -/
theorem getOrResolve_runs_hasty :
    (∀ (table : Got Nat) watched, WatchedTable.part.get (WatchedTable.part.set table watched) =
      table) ∧
    (WatchedTable.part.get ⟨⟨[some 5]⟩, true⟩ : Got Nat).size =
      (WatchedTable.part.get ⟨empty 1, false⟩ : Got Nat).size ∧
    Resolution WatchedTable.part 0 (hasty (some 6)) ⟨empty 1, false⟩ [] (some 5)
      ⟨⟨[some 5]⟩, true⟩ := by
  have lawful : ∀ (table : Got Nat) watched,
      WatchedTable.part.get (WatchedTable.part.set table watched) = table := fun _ _ => rfl
  have runs : (getOrResolve WatchedTable.part 0 (hasty (some 6)) ⟨empty 1, false⟩).Runs []
      (some 5) ⟨⟨[some 5]⟩, true⟩ := .done _ _
  have sized : (WatchedTable.part.get ⟨⟨[some 5]⟩, true⟩ : Got Nat).size =
      (WatchedTable.part.get ⟨empty 1, false⟩ : Got Nat).size := rfl
  exact ⟨lawful, sized, (getOrResolve_runs lawful sized).1.mp runs⟩

/-- A callback that gives the slot a value and then has none: the caller is told that there
is no value, and the slot holds one. -/
theorem resolveSlot_untold :
    ¬∀ (index : Nat) (value earlier : Option Nat) (table : Got Nat),
      (resolveSlot index value earlier table).1.1 =
        (resolveSlot index value earlier table).2.get index := by
  intro told
  have untold : (resolveSlot 0 none (some 5) (empty 1)).1.1 ≠
      (resolveSlot 0 none (some 5) (empty 1)).2.get 0 := by decide
  exact untold (told 0 none (some 5) (empty 1))

end Resolving

/-! ## Updating every slot -/

section Updating

variable [DecidableEq α]

/-- A walk over slots of a table, with the questions asked on the way and the visits
made: where it starts and where it ends. -/
inductive Walk (part : Part (Got α) σ) (visit : Nat → α → Action S σ (Option α)) :
    List Nat → σ → List S.Request → List (Nat × α) → σ → Prop where
  | finish (state : σ) : Walk part visit [] state [] [] state
  /-- The slot is null when the walk reaches it. -/
  | skip {index : Nat} {rest : List Nat} {before last : σ} {asked : List S.Request}
    {visits : List (Nat × α)} (null : (part.get before).get index = none)
    (onward : Walk part visit rest before asked visits last) :
    Walk part visit (index :: rest) before asked visits last
  /-- The slot holds a value when the walk reaches it and is visited with it. It then
  holds the answer if it still held the value by then, and otherwise what it held. -/
  | visit {index : Nat} {rest : List Nat} {before during after last : σ} {seen : α}
    {answer : Option α} {asked more : List S.Request} {visits : List (Nat × α)}
    (held : (part.get before).get index = some seen)
    (ran : (visit index seen before).Runs asked answer during)
    (settled : Writes part index
      (if (part.get during).get index = some seen then answer else (part.get during).get index)
      during after)
    (onward : Walk part visit rest after more visits last) :
    Walk part visit (index :: rest) before (asked ++ more) ((index, seen) :: visits) last

variable {visit : Nat → α → Action S σ (Option α)} {visits : List (Nat × α)}

/-- Slots are visited in the order in which the walk reaches them, each at most once. -/
theorem Walk.order {indexes : List Nat} (walk : Walk part visit indexes start asked visits last) :
    (visits.map Prod.fst).Sublist indexes := by
  induction walk with
  | finish => exact .slnil
  | skip null onward ih => exact ih.cons _
  | visit held ran settled onward ih => exact ih.cons_cons _

/-- A null slot is skipped. -/
theorem updateSlot_skips {turn : Option (Nat × α)} (null : (part.get start).get index = none) :
    (updateSlot part visit index start).Runs asked turn last ↔
      asked = [] ∧ turn = none ∧ last = start := by
  simp [updateSlot, null]

/-- A slot with a value is visited and then written. -/
theorem updateSlot_visits {turn : Option (Nat × α)} {seen : α}
    (held : (part.get start).get index = some seen) :
    (updateSlot part visit index start).Runs asked turn last ↔
      ∃ answer during, (visit index seen start).Runs asked answer during ∧
        turn = some (index, seen) ∧
        last = part.set (replaceIf index seen answer (part.get during)) during := by
  simp only [updateSlot, Action.bind_apply, Action.read_apply, Dialogue.bind_done, held,
    Dialogue.runs_bind, Action.within, Action.update_apply, Dialogue.within, Action.pure_apply,
    Dialogue.runs_done]
  constructor
  · rintro ⟨early, answer, during, _, ran, ⟨rfl, rfl, rfl⟩, rfl⟩
    exact ⟨answer, during, by rwa [List.append_nil], rfl, rfl⟩
  · rintro ⟨answer, during, ran, rfl, rfl⟩
    exact ⟨asked, answer, during, [], ran, ⟨rfl, rfl, rfl⟩, (List.append_nil asked).symm⟩

/-- What becomes of the first slot, and the walk over the others. -/
theorem updateSlots_cons {rest : List Nat} :
    (updateSlots part visit (index :: rest) start).Runs asked visits last ↔
      ∃ early turn middle late others, (updateSlot part visit index start).Runs early turn middle ∧
        (updateSlots part visit rest middle).Runs late others last ∧
        asked = early ++ late ∧ visits = turn.toList ++ others := by
  simp only [updateSlots, Action.bind_apply, Dialogue.runs_bind, Action.pure_apply,
    Dialogue.runs_done]
  constructor
  · rintro ⟨early, turn, middle, _, first, ⟨late, others, final, _, second, ⟨rfl, rfl, rfl⟩, rfl⟩,
      rfl⟩
    exact ⟨early, turn, middle, late, others, first, second, by rw [List.append_nil], rfl⟩
  · rintro ⟨early, turn, middle, late, others, first, second, rfl, rfl⟩
    exact ⟨early, turn, middle, late, first, ⟨late, others, last, [], second, ⟨rfl, rfl, rfl⟩,
      (List.append_nil late).symm⟩, rfl⟩

theorem updateSlots_runs (lawful : ∀ table state, part.get (part.set table state) = table)
    (indexes : List Nat) : (updateSlots part visit indexes start).Runs asked visits last ↔
      Walk part visit indexes start asked visits last := by
  induction indexes generalizing start asked visits last with
  | nil =>
    simp only [updateSlots, Action.pure_apply, Dialogue.runs_done]
    constructor
    · rintro ⟨rfl, rfl, rfl⟩
      exact .finish _
    · rintro ⟨⟩
      exact ⟨rfl, rfl, rfl⟩
  | cons index rest ih =>
    simp only [updateSlots_cons, ih]
    cases held : (part.get start).get index with
    | none =>
      simp only [updateSlot_skips held]
      constructor
      · rintro ⟨_, _, _, late, others, ⟨rfl, rfl, rfl⟩, walk, rfl, rfl⟩
        exact .skip held walk
      · intro walk
        cases walk with
        | skip null onward => exact ⟨_, _, _, _, _, ⟨rfl, rfl, rfl⟩, onward, rfl, rfl⟩
        | visit there => cases held.symm.trans there
    | some seen =>
      simp only [updateSlot_visits held]
      constructor
      · rintro ⟨early, _, _, late, others, ⟨answer, during, ran, rfl, rfl⟩, walk, rfl, rfl⟩
        exact .visit held ran (writes_replaceIf lawful index seen answer during) walk
      · intro walk
        cases walk with
        | skip null => cases held.symm.trans null
        | @visit _ _ _ during _ _ _ answer _ _ _ there ran settled onward =>
          obtain rfl := Option.some.inj (held.symm.trans there)
          obtain rfl := settled.unique (writes_replaceIf lawful index seen answer during)
          exact ⟨_, _, _, _, _, ⟨answer, during, ran, rfl, rfl⟩, onward, rfl, rfl⟩

/-- Every slot of the table is updated in turn, whatever the callback and everybody else
do to the table in the meantime. -/
theorem updateEach_runs (lawful : ∀ table state, part.get (part.set table state) = table) :
    (updateEach part visit start).Runs asked visits last ↔
      Walk part visit (List.range (part.get start).size) start asked visits last := by
  simp only [updateEach, Action.bind_apply, Action.read_apply, Dialogue.bind_done]
  exact updateSlots_runs lawful _

/-- A callback that during its first visit clears its slot and gives it the same value
again, clears the next slot and fills the last one, and during any other visit gives its
slot another value. -/
def restless (index _ : Nat) : Action .silent (WatchedTable Nat) (Option Nat) :=
  Action.step fun watched =>
    if watched.called then
      (none, { watched with table := (setIfNull index 7 (clear index watched.table).2).2 })
    else
      let refilled := (setIfNull index 1 (clear index watched.table).2).2
      (some 5, { table := (setIfNull 2 9 (clear 1 refilled).2).2, called := true })

/-- The first slot takes the answer, the second one is skipped, and the last one is
visited with the value that it was given on the way and keeps another one. -/
theorem updateEach_runs_restless :
    (∀ (table : Got Nat) watched, WatchedTable.part.get (WatchedTable.part.set table watched) =
      table) ∧
    (updateEach WatchedTable.part restless ⟨⟨[some 1, some 2, none]⟩, false⟩).Runs []
      [(0, 1), (2, 9)] ⟨⟨[some 5, none, some 7]⟩, true⟩ ∧
    Walk WatchedTable.part restless [0, 1, 2] ⟨⟨[some 1, some 2, none]⟩, false⟩ []
      [(0, 1), (2, 9)] ⟨⟨[some 5, none, some 7]⟩, true⟩ := by
  have lawful : ∀ (table : Got Nat) watched,
      WatchedTable.part.get (WatchedTable.part.set table watched) = table := fun _ _ => rfl
  have runs : (updateEach WatchedTable.part restless ⟨⟨[some 1, some 2, none]⟩, false⟩).Runs []
      [(0, 1), (2, 9)] ⟨⟨[some 5, none, some 7]⟩, true⟩ := .done _ _
  exact ⟨lawful, runs, (updateEach_runs lawful).mp runs⟩

end Updating

end Precompiled.Got
