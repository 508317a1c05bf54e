import Mathlib.Data.List.Induction
import Precompiled.Blob.Draft

/-! Drafts as the result of a sequence of additions. What was added to which
class, and under which number, is read off the sequence alone; the draft that
the additions lead to says the same. -/
namespace Precompiled.Blob

/-- One addition to a draft. Classes are referred to by the number under which
they were added. -/
inductive Edit where
  | addClass (name : String) (fingerprint : UInt64)
  | addMethod (classId : Nat) (method : MethodDraft)
  | addStub (name : String) (codeSize : UInt32)
  | addDependent (classId : Nat) (codeId : UInt32)
  | addMetaspaceSlot (name : String)
  | addObjectSlot (descriptor : String)
  | addRoutine (routine : String)
  deriving DecidableEq, Repr

namespace Edit

def apply (draft : Draft) : Edit → Draft
  | .addClass name fingerprint => (draft.addClass name fingerprint).1
  | .addMethod classId method => (draft.addMethod classId method).1
  | .addStub name codeSize => (draft.addStub name codeSize).1
  | .addDependent classId codeId => draft.addDependent classId codeId
  | .addMetaspaceSlot name => (draft.addMetaspaceSlot name).1
  | .addObjectSlot descriptor => (draft.addObjectSlot descriptor).1
  | .addRoutine routine => draft.addRoutine routine

def class? : Edit → Option (String × UInt64)
  | .addClass name fingerprint => some (name, fingerprint)
  | _ => none

/-- The code that an edit adds, with the class it belongs to; a stub belongs to
none. -/
def code? : Edit → Option (Option Nat × MethodDraft)
  | .addMethod classId method => some (some classId, method)
  | .addStub name codeSize => some (none, { name, signature := "", codeSize })
  | _ => none

def dependent? : Edit → Option (Nat × UInt32)
  | .addDependent classId codeId => some (classId, codeId)
  | _ => none

/-- The name whose metaspace slot an edit asks for. -/
def metaspace? : Edit → Option String
  | .addClass name _ => some name
  | .addMetaspaceSlot name => some name
  | _ => none

/-- The class that an edit refers to. -/
def target? : Edit → Option Nat
  | .addMethod classId _ => some classId
  | .addDependent classId _ => some classId
  | _ => none

def object? : Edit → Option String
  | .addObjectSlot descriptor => some descriptor
  | _ => none

def routine? : Edit → Option String
  | .addRoutine routine => some routine
  | _ => none

end Edit

/-! ## What a sequence of edits adds -/

namespace Edits

variable (edits : List Edit)

/-- The classes with their fingerprints, in the order of their numbers. -/
def classes : List (String × UInt64) :=
  edits.filterMap Edit.class?

/-- All code in the order of its ids. -/
def codes : List (Option Nat × MethodDraft) :=
  edits.filterMap Edit.code?

/-- The code of one class, or the stubs, with the ids it was given. -/
def owned (owner : Option Nat) : List (Nat × MethodDraft) :=
  (codes edits).zipIdx.filterMap fun code =>
    if code.1.1 = owner then some (code.2, code.1.2) else none

/-- The code ids that depend on the shape of a class. -/
def dependents (classId : Nat) : List UInt32 :=
  (edits.filterMap Edit.dependent?).filterMap fun dependent =>
    if dependent.1 = classId then some dependent.2 else none

/-- A name takes a new slot only if it has none yet. -/
def addName (names : List String) (name : String) : List String :=
  if name ∈ names then names else names ++ [name]

/-- The names behind the metaspace slots, in the order of the slots. -/
def metaspaceNames : List String :=
  (edits.filterMap Edit.metaspace?).foldl addName []

def objectNames : List String :=
  edits.filterMap Edit.object?

def routines : List String :=
  edits.filterMap Edit.routine?

/-- The name of the class that owns code; the owner of a stub has none. -/
def holder : Option Nat → String
  | some classId => ((classes edits)[classId]?.map Prod.fst).getD ""
  | none => ""

/-- Every class that an edit refers to had been added before it, where `count`
classes were there at first. -/
def knownFrom : Nat → List Edit → Bool
  | _, [] => true
  | count, edit :: rest =>
    edit.target?.all (fun classId => decide (classId < count)) &&
      knownFrom (count + edit.class?.toList.length) rest

/-- Every class that an edit refers to had been added before it. -/
def Known : Prop :=
  knownFrom 0 edits = true

instance : Decidable (Known edits) :=
  inferInstanceAs (Decidable (knownFrom 0 edits = true))

end Edits

/-- The draft that a sequence of edits leads to. -/
def Draft.describe (settings : BuildSettings) (engineVersion : String) (edits : List Edit) : Draft :=
  edits.foldl Edit.apply { settings, engineVersion }

namespace Edits

variable {edits : List Edit} {edit : Edit} {owner : Option Nat} {codeId classId : Nat}
  {method : MethodDraft} {name : String} {names : List String}

/-! ## Who owns which code -/

theorem mem_owned :
    (codeId, method) ∈ owned edits owner ↔ (codes edits)[codeId]? = some (owner, method) := by
  simp only [owned, List.mem_filterMap, List.mem_zipIdx_iff_getElem?, Prod.exists]
  constructor
  · rintro ⟨other, draft, index, found, kept⟩
    split at kept
    next same =>
      cases kept
      rwa [← same]
    next => cases kept
  · intro found
    exact ⟨owner, method, codeId, found, if_pos rfl⟩

/-- No piece of code has two owners. -/
theorem owner_unique (first : codeId ∈ (owned edits owner).map Prod.fst)
    (second : codeId ∈ (owned edits other).map Prod.fst) : owner = other := by
  obtain ⟨⟨id, method⟩, member, rfl⟩ := List.mem_map.mp first
  obtain ⟨⟨same, another⟩, among, equal⟩ := List.mem_map.mp second
  obtain rfl : same = id := equal
  have found := (mem_owned.mp member).symm.trans (mem_owned.mp among)
  exact congrArg Prod.fst (Option.some.inj found)

theorem owned_append (edits : List Edit) (edit : Edit) (owner : Option Nat) :
    owned (edits ++ [edit]) owner = owned edits owner ++
      (edit.code?.toList.filterMap fun code =>
        if code.1 = owner then some ((codes edits).length, code.2) else none) := by
  rcases added : edit.code? with _ | code
  · simp [owned, codes, added]
  · by_cases same : code.1 = owner
    · simp [owned, codes, added, List.zipIdx_append, same]
    · simp [owned, codes, added, List.zipIdx_append, same]

theorem classes_append (first second : List Edit) :
    classes (first ++ second) = classes first ++ classes second := by
  simp [classes]

theorem knownFrom_append (count : Nat) (first second : List Edit) :
    knownFrom count (first ++ second) =
      (knownFrom count first && knownFrom (count + (classes first).length) second) := by
  induction first generalizing count with
  | nil => simp [knownFrom, classes]
  | cons edit rest ih =>
    have length : (classes (edit :: rest)).length =
        edit.class?.toList.length + (classes rest).length := by
      rcases added : edit.class? with _ | entry <;> simp [classes, added, Nat.add_comm]
    rw [List.cons_append, knownFrom, ih, knownFrom, length, Nat.add_assoc, Bool.and_assoc]

theorem Known.left (known : Known (first ++ second)) : Known first := by
  unfold Known at known
  rw [knownFrom_append, Bool.and_eq_true] at known
  exact known.1

/-- The class that an edit in the midst of others refers to is one of those
added in front of it. -/
theorem Known.target_lt {before after : List Edit} (known : Known (before ++ edit :: after))
    (target : edit.target? = some classId) : classId < (classes before).length := by
  unfold Known at known
  rw [knownFrom_append, Nat.zero_add, knownFrom, target] at known
  simp only [Option.all_some, Bool.and_eq_true, decide_eq_true_eq] at known
  exact known.2.1

theorem Known.target_lt_all (known : Known edits) (among : edit ∈ edits)
    (target : edit.target? = some classId) : classId < (classes edits).length := by
  obtain ⟨before, after, rfl⟩ := List.append_of_mem among
  have earlier := known.target_lt target
  rw [classes_append, List.length_append]
  omega

/-- Code belongs to classes that were added. -/
theorem Known.owner_lt (known : Known edits) (member : (some classId, method) ∈ codes edits) :
    classId < (classes edits).length := by
  obtain ⟨edit, among, added⟩ := List.mem_filterMap.mp member
  refine known.target_lt_all among ?_
  cases edit <;> cases added
  rfl

theorem Known.dependent_lt {dependent : UInt32} (known : Known edits)
    (member : (classId, dependent) ∈ edits.filterMap Edit.dependent?) :
    classId < (classes edits).length := by
  obtain ⟨edit, among, added⟩ := List.mem_filterMap.mp member
  refine known.target_lt_all among ?_
  cases edit <;> cases added
  rfl

/-! ## Metaspace slots -/

theorem addName_grows (names : List String) (name : String) : names <+: addName names name := by
  unfold addName
  split
  · exact List.prefix_rfl
  · exact List.prefix_append _ _

theorem mem_addName (names : List String) (name : String) : name ∈ addName names name := by
  unfold addName
  split
  next member => exact member
  next => simp

theorem metaspaceNames_append (edits : List Edit) (edit : Edit) :
    metaspaceNames (edits ++ [edit]) = edit.metaspace?.toList.foldl addName (metaspaceNames edits) := by
  rcases named : edit.metaspace? with _ | name <;> simp [metaspaceNames, named]

theorem metaspaceNames_grows (edits : List Edit) (edit : Edit) :
    metaspaceNames edits <+: metaspaceNames (edits ++ [edit]) := by
  rw [metaspaceNames_append]
  rcases edit.metaspace? with _ | name
  · exact List.prefix_rfl
  · exact addName_grows _ _

/-- Every name that was asked for has a slot. -/
theorem mem_metaspaceNames (member : name ∈ edits.filterMap Edit.metaspace?) :
    name ∈ metaspaceNames edits := by
  unfold metaspaceNames
  generalize edits.filterMap Edit.metaspace? = asked at member
  suffices grown : ∀ names : List String, name ∈ names ∨ name ∈ asked →
      name ∈ asked.foldl addName names from grown [] (.inr member)
  clear member
  induction asked with
  | nil =>
    intro names either
    simpa using either
  | cons first rest ih =>
    intro names either
    apply ih
    rcases either with earlier | listed
    · exact .inl ((addName_grows names first).subset earlier)
    · rcases List.mem_cons.mp listed with rfl | later
      · exact .inl (mem_addName names name)
      · exact .inr later

theorem class_has_slot (member : added ∈ classes edits) : added.1 ∈ metaspaceNames edits := by
  obtain ⟨edit, among, is⟩ := List.mem_filterMap.mp member
  cases edit with
  | addClass name fingerprint =>
    obtain rfl := Option.some.inj is
    exact mem_metaspaceNames (List.mem_filterMap.mpr ⟨_, among, rfl⟩)
  | _ => cases is

/-! ## The draft says what was added -/

/-- A class with everything that was added to it. -/
def classDraft (edits : List Edit) (classId : Nat) (added : String × UInt64) : ClassDraft where
  name := added.1
  fingerprint := added.2
  gotIndex := (metaspaceNames edits).idxOf added.1
  methods := (owned edits (some classId)).map Prod.fst
  dependents := dependents edits classId

/-- The draft written down from the sequence of edits alone. -/
def summary (settings : BuildSettings) (engineVersion : String) (edits : List Edit) : Draft where
  settings := settings
  engineVersion := engineVersion
  classes := (classes edits).mapIdx (classDraft edits)
  codes := (codes edits).map fun code => ⟨holder edits code.1, code.2⟩
  stubs := (owned edits none).map Prod.fst
  metaspaceNames := metaspaceNames edits
  objectNames := objectNames edits
  routines := routines edits

/-- The metaspace slot of a name is where it is listed, whether it was there
before or is made now. -/
theorem addMetaspaceSlot_spec (draft : Draft) (name : String) : draft.addMetaspaceSlot name =
    ({ draft with metaspaceNames := addName draft.metaspaceNames name },
      (addName draft.metaspaceNames name).idxOf name) := by
  unfold Draft.addMetaspaceSlot addName
  split
  next index found =>
    obtain ⟨bound, same, -⟩ := List.findIdx?_eq_some_iff_getElem.mp found
    have equal : draft.metaspaceNames[index] = name := by simpa using same
    have member : name ∈ draft.metaspaceNames := equal ▸ List.getElem_mem bound
    have place : draft.metaspaceNames.idxOf name = index :=
      (List.findIdx?_eq_some_iff_findIdx_eq.mp found).2
    simp [member, place]
  next missing =>
    have absent : name ∉ draft.metaspaceNames := by
      intro member
      have none := List.findIdx?_eq_none_iff.mp missing name member
      simp at none
    simp [absent, List.idxOf_append]

/-- Without a new name the slots keep their places. -/
theorem idxOf_kept (edits : List Edit) (edit : Edit) (listed : name ∈ metaspaceNames edits) :
    (metaspaceNames (edits ++ [edit])).idxOf name = (metaspaceNames edits).idxOf name := by
  obtain ⟨more, grown⟩ := metaspaceNames_grows edits edit
  rw [← grown, List.idxOf_append, if_pos listed]

theorem Known.none_owned (known : Known edits) :
    owned edits (some (classes edits).length) = [] := by
  apply List.eq_nil_iff_forall_not_mem.mpr
  rintro ⟨codeId, method⟩ member
  have bound := known.owner_lt (List.mem_of_getElem? (mem_owned.mp member))
  omega

theorem Known.none_dependent (known : Known edits) :
    dependents edits (classes edits).length = [] := by
  apply List.eq_nil_iff_forall_not_mem.mpr
  intro codeId member
  obtain ⟨⟨target, dependent⟩, among, kept⟩ := List.mem_filterMap.mp member
  have bound := known.dependent_lt among
  split at kept
  · omega
  · cases kept

/-- Classes that come later do not change who holds the code there is. -/
theorem Known.holder_kept (known : Known edits) (edit : Edit)
    (member : (owner, method) ∈ codes edits) : holder (edits ++ [edit]) owner = holder edits owner := by
  cases owner with
  | none => rfl
  | some classId =>
    have bound := known.owner_lt member
    simp only [holder, classes, List.filterMap_append] at bound ⊢
    rw [List.getElem?_append_left bound]

theorem dependents_append (edits : List Edit) (edit : Edit) (classId : Nat) :
    dependents (edits ++ [edit]) classId = dependents edits classId ++
      edit.dependent?.toList.filterMap fun dependent =>
        if dependent.1 = classId then some dependent.2 else none := by
  rcases added : edit.dependent? with _ | dependent <;> simp [dependents, added]

/-- What one more edit adds to a class. -/
def extend (edits : List Edit) (edit : Edit) (classId : Nat) (owner : ClassDraft) : ClassDraft :=
  { owner with
    methods := owner.methods ++ edit.code?.toList.filterMap fun code =>
      if code.1 = some classId then some (codes edits).length else none
    dependents := owner.dependents ++ edit.dependent?.toList.filterMap fun dependent =>
      if dependent.1 = classId then some dependent.2 else none }

/-- The classes of a longer sequence, as long as none is added. -/
theorem classDrafts_append (edits : List Edit) (edit : Edit) (none : edit.class? = none) :
    (classes (edits ++ [edit])).mapIdx (classDraft (edits ++ [edit])) =
      ((classes edits).mapIdx (classDraft edits)).mapIdx (extend edits edit) := by
  have same : classes (edits ++ [edit]) = classes edits := by simp [classes, none]
  rw [same]
  refine List.mapIdx_eq_iff.mpr fun classId => ?_
  rw [List.getElem?_mapIdx, List.getElem?_mapIdx, Option.map_map]
  rcases found : (classes edits)[classId]? with _ | added
  · rfl
  · have listed := class_has_slot (List.mem_of_getElem? found)
    simp only [Option.map_some, Function.comp_apply, classDraft, extend, owned_append, dependents_append,
      idxOf_kept edits edit listed, List.map_append, List.map_filterMap]
    congr 4
    funext code
    split <;> rfl

theorem codes_append (known : Known edits) (edit : Edit) :
    (codes (edits ++ [edit])).map (fun code => (⟨holder (edits ++ [edit]) code.1, code.2⟩ : CodeDraft)) =
      (codes edits).map (fun code => ⟨holder edits code.1, code.2⟩) ++
        edit.code?.toList.map fun code => ⟨holder (edits ++ [edit]) code.1, code.2⟩ := by
  have same : codes (edits ++ [edit]) = codes edits ++ edit.code?.toList := by
    rcases added : edit.code? with _ | code <;> simp [codes, added]
  rw [same, List.map_append]
  congr 1
  apply List.map_congr_left
  rintro ⟨owner, method⟩ member
  rw [known.holder_kept edit member]

/-- What one more edit adds to a summary, unless it is a class. -/
theorem summary_append (known : Known edits) (none : edit.class? = none) :
    summary settings engineVersion (edits ++ [edit]) = { summary settings engineVersion edits with
      classes := ((classes edits).mapIdx (classDraft edits)).mapIdx (extend edits edit)
      codes := (summary settings engineVersion edits).codes ++
        edit.code?.toList.map fun code => ⟨holder edits code.1, code.2⟩
      stubs := (summary settings engineVersion edits).stubs ++ edit.code?.toList.filterMap fun code =>
        if code.1 = .none then some (codes edits).length else .none
      metaspaceNames := edit.metaspace?.toList.foldl addName (metaspaceNames edits)
      objectNames := objectNames edits ++ edit.object?.toList
      routines := routines edits ++ edit.routine?.toList } := by
  have held : ∀ owner, holder (edits ++ [edit]) owner = holder edits owner := by
    intro owner
    cases owner <;> simp [holder, classes, none]
  have object : objectNames (edits ++ [edit]) = objectNames edits ++ edit.object?.toList := by
    rcases added : edit.object? with _ | descriptor <;> simp [objectNames, added]
  have routine : routines (edits ++ [edit]) = routines edits ++ edit.routine?.toList := by
    rcases added : edit.routine? with _ | routine <;> simp [routines, added]
  have stubs : (owned (edits ++ [edit]) .none).map Prod.fst = (owned edits .none).map Prod.fst ++
      edit.code?.toList.filterMap fun code =>
        if code.1 = .none then some (codes edits).length else .none := by
    rw [owned_append, List.map_append, List.map_filterMap]
    congr 2
    funext code
    split <;> rfl
  have coded := codes_append known edit
  simp only [held] at coded
  simp only [summary, classDrafts_append edits edit none, coded, held, stubs, metaspaceNames_append,
    object, routine]

private theorem summary_addClass (known : Known edits) :
    Edit.apply (summary settings engineVersion edits) (.addClass name fingerprint) =
      summary settings engineVersion (edits ++ [.addClass name fingerprint]) := by
  have names : metaspaceNames (edits ++ [.addClass name fingerprint]) =
      addName (metaspaceNames edits) name := by simp [metaspaceNames_append, Edit.metaspace?]
  have listed : classes (edits ++ [.addClass name fingerprint]) =
      classes edits ++ [(name, fingerprint)] := by simp [classes, Edit.class?]
  have earlier : (classes edits).mapIdx (classDraft (edits ++ [.addClass name fingerprint])) =
      (classes edits).mapIdx (classDraft edits) := by
    refine List.mapIdx_eq_iff.mpr fun classId => ?_
    rw [List.getElem?_mapIdx]
    rcases found : (classes edits)[classId]? with _ | added
    · rfl
    · have member := class_has_slot (List.mem_of_getElem? found)
      simp [classDraft, owned_append, dependents_append, idxOf_kept edits _ member, Edit.code?,
        Edit.dependent?]
  have last : classDraft (edits ++ [.addClass name fingerprint]) (classes edits).length
      (name, fingerprint) =
        { name, fingerprint, gotIndex := (addName (metaspaceNames edits) name).idxOf name } := by
    simp [classDraft, owned_append, dependents_append, known.none_owned, known.none_dependent, names,
      Edit.code?, Edit.dependent?]
  have codes := codes_append known (.addClass name fingerprint)
  simp only [Edit.apply, Draft.addClass, addMetaspaceSlot_spec, summary, names, Draft.mk.injEq,
    true_and, listed, List.mapIdx_concat, earlier, last, codes]
  simp [owned_append, Edit.code?, objectNames, routines, Edit.object?, Edit.routine?]

/-- Changing one element is changing every element, most of them to what they
are. -/
theorem modify_eq_mapIdx (items : List α) (index : Nat) (change : α → α) :
    items.modify index change = items.mapIdx fun place item =>
      if index = place then change item else item := by
  refine (List.mapIdx_eq_iff.mpr fun place => ?_).symm
  rw [List.getElem?_modify]
  rcases items[place]? with _ | item
  · rfl
  · by_cases same : index = place <;> simp [same]

theorem mapIdx_same (items : List α) : items.mapIdx (fun _ item => item) = items :=
  List.mapIdx_eq_iff.mpr fun place => by simp

/-- Most edits add nothing to any class. -/
private theorem extend_none (code : ∀ classId method, edit.code? ≠ some (some classId, method))
    (dependent : edit.dependent? = none) : extend edits edit = fun _ owner => owner := by
  funext place owner
  rcases added : edit.code? with _ | ⟨_ | classId, method⟩
  · simp [extend, added, dependent]
  · simp [extend, added, dependent]
  · exact absurd added (code classId method)

theorem summary_apply (known : Known (edits ++ [edit])) :
    edit.apply (summary settings engineVersion edits) =
      summary settings engineVersion (edits ++ [edit]) := by
  have before := known.left
  cases edit with
  | addClass name fingerprint => exact summary_addClass before
  | addMethod classId method =>
    have owner : ((summary settings engineVersion edits).classes[classId]?.map ClassDraft.name).getD "" =
        holder edits (some classId) := by
      simp [summary, holder, Option.map_map, Function.comp_def, classDraft]
    have grown : extend edits (.addMethod classId method) = fun place owner =>
        if classId = place then { owner with methods := owner.methods ++ [(codes edits).length] }
        else owner := by
      funext place owner
      by_cases same : classId = place <;> simp [extend, Edit.code?, Edit.dependent?, same]
    rw [summary_append before rfl, grown]
    simp only [Edit.apply, Draft.addMethod, owner, modify_eq_mapIdx]
    simp [summary, Edit.code?, Edit.metaspace?, Edit.object?, Edit.routine?]
  | addDependent classId codeId =>
    have grown : extend edits (.addDependent classId codeId) = fun place owner =>
        if classId = place then { owner with dependents := owner.dependents ++ [codeId] }
        else owner := by
      funext place owner
      by_cases same : classId = place <;> simp [extend, Edit.code?, Edit.dependent?, same]
    rw [summary_append before rfl, grown]
    simp only [Edit.apply, Draft.addDependent, modify_eq_mapIdx]
    simp [summary, Edit.code?, Edit.metaspace?, Edit.object?, Edit.routine?]
  | addStub name codeSize =>
    rw [summary_append before rfl, extend_none (by simp [Edit.code?]) rfl, mapIdx_same]
    simp [Edit.apply, Draft.addStub, summary, Edit.code?, Edit.metaspace?, Edit.object?,
      Edit.routine?, holder]
  | addMetaspaceSlot name =>
    rw [summary_append before rfl, extend_none (by simp [Edit.code?]) rfl, mapIdx_same]
    simp [Edit.apply, addMetaspaceSlot_spec, summary, Edit.code?, Edit.metaspace?, Edit.object?,
      Edit.routine?]
  | addObjectSlot descriptor =>
    rw [summary_append before rfl, extend_none (by simp [Edit.code?]) rfl, mapIdx_same]
    simp [Edit.apply, Draft.addObjectSlot, summary, Edit.code?, Edit.metaspace?, Edit.object?,
      Edit.routine?]
  | addRoutine routine =>
    rw [summary_append before rfl, extend_none (by simp [Edit.code?]) rfl, mapIdx_same]
    simp [Edit.apply, Draft.addRoutine, summary, Edit.code?, Edit.metaspace?, Edit.object?,
      Edit.routine?]

/-- The draft that a sequence of edits leads to is the one that can be read off
the sequence. -/
theorem describe_eq (known : Known edits) :
    Draft.describe settings engineVersion edits = summary settings engineVersion edits := by
  induction edits using List.reverseRecOn with
  | nil => rfl
  | append_singleton edits edit ih =>
    rw [← summary_apply known, ← ih known.left]
    simp [Draft.describe]

end Edits

end Precompiled.Blob
