import Precompiled.Blob.Assembly
import Precompiled.Proofs.Blob.Codec

/-! Interned texts. A sequence of texts keeps the offset it was first given,
however much is interned afterwards. What a computation that interns texts
yields is therefore a function of any later pool, the one that ends up in the
blob included, and the records of a blob can be described by that pool alone. -/
namespace Precompiled.Blob.NamePool

/-- The offset of a sequence of texts that the pool knows. -/
def offsetOf (pool : NamePool) (parts : List String) : Nat :=
  (pool.interned.lookup parts).getD 0

/-- The pool knows where the sequence of texts stands. -/
def Knows (pool : NamePool) (parts : List String) : Prop :=
  ∃ offset, pool.interned.lookup parts = some offset

/-- The most texts that are interned in one sequence. -/
def longestSequence : Nat := 3

/-- Every known sequence stands where the pool says, and the last text written
is a known one, so that the pool ends soon after its last known offset. -/
structure Sound (pool : NamePool) : Prop where
  held : ∀ parts offset, pool.interned.lookup parts = some offset →
    Holds pool.bytes offset (parts.flatMap nameBytes)
  ended : ∀ limit, (∀ parts offset, pool.interned.lookup parts = some offset → offset < limit) →
    pool.bytes.length < limit + longestSequence * (2 + maxNameBytes)

/-- What one pool knows a later one knows alike. -/
structure Extends (later earlier : NamePool) : Prop where
  bytes : earlier.bytes <+: later.bytes
  kept : ∀ parts offset, earlier.interned.lookup parts = some offset →
    later.interned.lookup parts = some offset

variable {pool later earlier middle last : NamePool} {parts : List String}

theorem Extends.refl (pool : NamePool) : pool.Extends pool :=
  ⟨List.prefix_rfl, fun _ _ known => known⟩

theorem Extends.trans (second : last.Extends middle) (first : Extends middle earlier) :
    last.Extends earlier :=
  ⟨first.bytes.trans second.bytes,
    fun parts offset known => second.kept parts offset (first.kept parts offset known)⟩

theorem Extends.knows (extension : Extends later earlier) (known : earlier.Knows parts) :
    later.Knows parts := by
  obtain ⟨offset, found⟩ := known
  exact ⟨offset, extension.kept parts offset found⟩

theorem Extends.offsetOf (extension : Extends later earlier)
    (found : earlier.interned.lookup parts = some offset) : later.offsetOf parts = offset := by
  simp only [NamePool.offsetOf, extension.kept parts offset found, Option.getD_some]

theorem Sound.empty : Sound {} where
  held _ _ found := nomatch found
  ended limit _ := by
    simp only [longestSequence, List.length_nil]
    omega

theorem Sound.holds (sound : Sound pool) (known : pool.Knows parts) :
    Holds pool.bytes (pool.offsetOf parts) (parts.flatMap nameBytes) := by
  obtain ⟨offset, found⟩ := known
  have held := sound.held parts offset found
  rwa [← (Extends.refl pool).offsetOf found] at held

/-- The computation interns `texts`, and what it yields is `value` of every
later pool. -/
def Interns (computation : StateM NamePool α) (texts : List (List String))
    (value : NamePool → α) : Prop :=
  ∀ pool : NamePool, pool.Sound → ∃ result after, computation.run pool = (result, after) ∧
    after.Sound ∧ after.Extends pool ∧ (∀ parts ∈ texts, after.Knows parts) ∧
    ∀ later : NamePool, later.Extends after → result = value later

theorem interns_pure (value : α) : Interns (pure value) [] fun _ => value :=
  fun pool sound => ⟨value, pool, rfl, sound, .refl pool, by simp, fun _ _ => rfl⟩

theorem Interns.bind {first : StateM NamePool α} {next : α → StateM NamePool β}
    {firstValue : NamePool → α} {nextValue : α → NamePool → β} (begun : Interns first texts firstValue)
    (continued : ∀ result, Interns (next result) others (nextValue result)) :
    Interns (first >>= next) (texts ++ others) fun pool => nextValue (firstValue pool) pool := by
  intro pool sound
  obtain ⟨found, middle, ran, soundMiddle, grown, known, value⟩ := begun pool sound
  obtain ⟨result, after, ranOn, soundAfter, grownOn, knownOn, valueOn⟩ :=
    continued found middle soundMiddle
  refine ⟨result, after, ?_, soundAfter, grownOn.trans grown, ?_, ?_⟩
  · rw [StateT.run_bind, ran]
    exact ranOn
  · intro parts member
    rcases List.mem_append.mp member with early | late
    · exact grownOn.knows (known parts early)
    · exact knownOn parts late
  · intro later extension
    obtain rfl := value later (extension.trans grownOn)
    exact valueOn later extension

theorem Interns.map {computation : StateM NamePool α} {value : NamePool → α}
    (begun : Interns computation texts value) (view : α → β) :
    Interns (computation >>= fun found => pure (view found)) texts fun pool => view (value pool) := by
  have both := begun.bind (fun found => interns_pure (view found))
  rwa [List.append_nil] at both

theorem Interns.mapM {step : α → StateM NamePool β} {texts : α → List (List String)}
    {value : α → NamePool → β} (each : ∀ item, Interns (step item) (texts item) (value item))
    (items : List α) :
    Interns (items.mapM step) (items.flatMap texts) fun pool =>
      items.map fun item => value item pool := by
  induction items with
  | nil => exact interns_pure []
  | cons item rest ih =>
    rw [List.mapM_cons, List.flatMap_cons]
    exact (each item).bind fun first => ih.map (first :: ·)

/-! ## One sequence of texts -/

theorem nameBytes_length_le (name : String) : (nameBytes name).length ≤ 2 + maxNameBytes := by
  simp only [nameBytes, List.length_append, word16_length, List.length_take]
  omega

theorem sequence_length_le (parts : List String) :
    (parts.flatMap nameBytes).length ≤ parts.length * (2 + maxNameBytes) := by
  induction parts with
  | nil => simp
  | cons part rest ih =>
    have first := nameBytes_length_le part
    simp only [List.flatMap_cons, List.length_append, List.length_cons, Nat.add_mul, Nat.one_mul]
    omega

/-- The pool after a sequence it did not know. -/
def enter (pool : NamePool) (parts : List String) : NamePool where
  bytes := pool.bytes ++ parts.flatMap nameBytes
  interned := pool.interned ++ [(parts, pool.bytes.length)]

theorem lookup_enter (unknown : pool.interned.lookup parts = none) :
    (pool.enter parts).interned.lookup parts = some pool.bytes.length := by
  simp [enter, List.lookup_append, unknown]

theorem enter_extends (pool : NamePool) (parts : List String) : (pool.enter parts).Extends pool where
  bytes := List.prefix_append _ _
  kept other offset found := by simp [enter, List.lookup_append, found]

theorem Sound.enter (sound : Sound pool) (short : parts.length ≤ longestSequence)
    (unknown : pool.interned.lookup parts = none) : (pool.enter parts).Sound where
  held := by
    intro other offset found
    rw [NamePool.enter, List.lookup_append] at found
    rcases known : pool.interned.lookup other with _ | earlier
    · rw [known, Option.none_or, List.lookup_cons] at found
      split at found
      next same =>
        obtain rfl : other = parts := eq_of_beq same
        obtain rfl : pool.bytes.length = offset := Option.some.inj found
        exact ⟨pool.bytes, [], by simp [NamePool.enter], rfl⟩
      next => cases found
    · obtain rfl : earlier = offset := by simpa [known] using found
      obtain ⟨before, behind, split, length⟩ := sound.held other earlier known
      exact ⟨before, behind ++ parts.flatMap nameBytes, by simp [NamePool.enter, split], length⟩
  ended := by
    intro limit below
    have start := below parts _ (lookup_enter unknown)
    have grown := sequence_length_le parts
    have room := Nat.mul_le_mul_right (2 + maxNameBytes) short
    simp only [NamePool.enter, List.length_append]
    omega

theorem interns_intern (parts : List String) (short : parts.length ≤ longestSequence) :
    Interns (intern parts) [parts] fun pool => pool.offsetOf parts := by
  intro pool sound
  rcases known : pool.interned.lookup parts with _ | offset
  · refine ⟨pool.bytes.length, pool.enter parts, ?_, sound.enter short known,
      enter_extends pool parts, ?_, ?_⟩
    · simp only [intern, StateT.run_bind, StateT.run_get, pure_bind, known]
      rfl
    · intro other member
      obtain rfl := List.mem_singleton.mp member
      exact ⟨_, lookup_enter known⟩
    · intro later extension
      exact (extension.offsetOf (lookup_enter known)).symm
  · refine ⟨offset, pool, ?_, sound, .refl pool, ?_, ?_⟩
    · simp only [intern, StateT.run_bind, StateT.run_get, pure_bind, known]
      rfl
    · intro other member
      obtain rfl := List.mem_singleton.mp member
      exact ⟨offset, known⟩
    · intro later extension
      exact (extension.offsetOf known).symm

end Precompiled.Blob.NamePool
