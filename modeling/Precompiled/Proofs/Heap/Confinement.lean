import Precompiled.Blob.Damage
import Precompiled.Proofs.Heap.Misses
import Precompiled.Proofs.Heap.Provision

/-! Which metadata slots linking a class writes to. A method's metadata is resolved
name by name before the geometry of its record is looked at, and the place of a slot
is taken from the record that is kept for the code id. So a slot is written only if a
method of the class lists it; it lies in what sound methods of the class declare,
unless the record it was computed from is refused or belongs to somebody else. A
refused method leaves values in all the slots that it lists. -/
namespace Precompiled.Heap

open Blob

variable {image : Image} {view : ClassView} {entry : ClassEntry} {record : CodeRecord}
  {detail : CodeDetail} {before after : State} {asked : List Engine.Request} {cell last : Cell}
  {error : Error} {index : Nat} {descriptor : String} {α β : Type}

/-! ## What a record says of its metadata -/

/-- The slot is among those that the record declares to be its own. -/
def Declares (record : CodeRecord) (index : Nat) : Prop :=
  ∃ start count, natural? record.metadataStart = some start ∧
    natural? record.metadataCount = some count ∧ start ≤ index ∧ index < start + count

/-- The code of the record can be placed. -/
def Image.Accepts (image : Image) (record : CodeRecord) : Prop :=
  ∃ detail offset start, image.library.detailOf record = .ok detail ∧
    Geometry image record detail offset start

/-- For whom the code is placed does not matter. -/
theorem accepts_iff (name : MethodName) (live : Option MethodRef) (holder : Option ClassRef)
    (classId : Option Nat) : image.Accepts record ↔ ∃ detail code,
      image.library.detailOf record = .ok detail ∧
        image.place record detail name live holder classId = .ok code := by
  constructor
  · rintro ⟨detail, offset, start, read, geometry⟩
    exact ⟨detail, _, read, place_ok.mpr ⟨offset, start, geometry, rfl⟩⟩
  · rintro ⟨detail, code, read, placed⟩
    obtain ⟨offset, start, geometry, -⟩ := place_ok.mp placed
    exact ⟨detail, offset, start, read, geometry⟩

/-- The slot is resolved, by this descriptor, when the record's method is linked. -/
def Lists (image : Image) (record : CodeRecord) (descriptor : String) (index : Nat) : Prop :=
  ∃ detail localIndex, image.library.detailOf record = .ok detail ∧
    localIndex < detail.metadataNames.length ∧
      metadataSlot image (slotNumber record) localIndex = .ok (descriptor, index)

/-- What is kept for the record's code id is not a sound method of the class. -/
def Stray (image : Image) (entry : ClassEntry) (record : CodeRecord) : Prop :=
  ∃ owned, image.record? (slotNumber record) = some owned ∧
    (owned.classId ≠ some entry.classId ∨ ¬image.Accepts owned.record)

/-- A slot that is listed lies where sound methods of the class have theirs, but for
strays. -/
theorem Lists.declared {stubs : List CodeRecord} {library : Library}
    (prepared : prepare library = .ok (image, stubs))
    (known : image.classEntry? entry.classId = some entry)
    (lists : Lists image record descriptor index) :
    (∃ own ∈ methods image entry, image.Accepts own ∧ Declares own index) ∨
      Stray image entry record := by
  obtain ⟨_, localIndex, -, -, slot⟩ := lists
  obtain ⟨owned, detail, nameOffset, start, found, detailed, named, -, begins, rfl⟩ :=
    Draft.metadataSlot_ok.mp slot
  by_cases own : owned.classId = some entry.classId ∧ image.Accepts owned.record
  swap
  · exact .inr ⟨owned, found, not_and_or.mp own⟩
  obtain ⟨mine, other, offset, first, read, geometry⟩ := own
  obtain rfl := Except.ok.inj (detailed.symm.trans read)
  obtain rfl := Option.some.inj (begins.symm.trans geometry.slots)
  obtain ⟨rfl, sound, -⟩ := prepare_claims prepared
  obtain ⟨claimed, -⟩ := sound _ owned found
  rw [mine] at claimed
  refine .inl ⟨owned.record, ?_, ⟨detail, offset, start, read, geometry⟩, start, _, begins,
    geometry.count, Nat.le_add_right _ _, ?_⟩
  · cases claimed with
    | method inside there listed among =>
      obtain rfl := Except.ok.inj (there.symm.trans (classEntry_read known).2)
      exact mem_methods.mpr ⟨_, listed, among⟩
  · exact Nat.add_lt_add_left (List.getElem?_eq_some_iff.mp named).1 start

/-! ## Why references fail -/

/-- What is referred to cannot be read, or nobody could resolve it. -/
inductive Dangling : Error → Prop where
  | malformed (library : String) (cause : DecodeError) : Dangling (.malformed library cause)
  | unresolved (site : String) (reference : Reference) : Dangling (.unresolved site reference)

/-- If this failed then for the sake of a reference. -/
def Dangles (outcome : Except Error α) : Prop :=
  ∀ error, outcome = .error error → Dangling error

theorem dangles_ok (value : α) : Dangles (.ok value : Except Error α) := nofun

theorem dangles_error : Dangles (.error error : Except Error α) ↔ Dangling error := by
  constructor
  · exact fun dangles => dangles error rfl
  · rintro dangling _ ⟨⟩
    exact dangling

theorem dangles_reading (library : Library) (outcome : Except DecodeError α) :
    Dangles (library.reading outcome) := by
  cases outcome with
  | ok value => exact dangles_ok value
  | error cause => exact dangles_error.mpr (.malformed _ _)

theorem Dangles.bind {outcome : Except Error α} {next : α → Except Error β}
    (first : Dangles outcome) (second : ∀ value, Dangles (next value)) :
    Dangles (outcome >>= next) := by
  cases outcome with
  | ok value => exact second value
  | error reason => exact dangles_error.mpr (dangles_error.mp first)

theorem Dangles.describedAt {named : Except Error String} (dangles : Dangles named) (index : Nat) :
    Dangles (describedAt index named) := by
  cases named with
  | ok name => exact dangles_ok _
  | error reason => exact dangles_error.mpr (dangles_error.mp dangles)

theorem dangles_indexedName (library : Library) (table : Bytes) (index : Nat) :
    Dangles (library.indexedName table index) :=
  (dangles_reading library _).bind fun _ => dangles_reading library _

theorem dangles_metadataSlot (image : Image) (codeId localIndex : Nat) :
    Dangles (metadataSlot image codeId localIndex) := by
  have unresolved : ∀ reference, Dangles (throw (unresolved image reference) :
      Except Error (String × Nat)) := fun _ => dangles_error.mpr (.unresolved _ _)
  unfold metadataSlot
  cases image.record? codeId with
  | none => exact unresolved _
  | some owned =>
    refine (dangles_reading image.library _).bind fun detail => ?_
    cases detail.metadataNames[localIndex]? with
    | none => exact unresolved _
    | some nameOffset =>
      refine (dangles_reading image.library _).bind fun name => ?_
      cases natural? owned.record.metadataStart with
      | none => exact unresolved _
      | some start => exact dangles_ok _

theorem dangles_orUnresolved (value : Option α) (reference : Reference) :
    Dangles (orUnresolved image value reference) := by
  cases value with
  | some value => exact dangles_ok value
  | none => exact dangles_error.mpr (.unresolved _ _)

theorem Dangling.inMethod (dangling : Dangling error) (name : MethodName) :
    Dangling (inMethod name error) := by
  cases dangling with
  | malformed => exact .malformed _ _
  | unresolved => exact .unresolved _ _

/-! ## Steps that resolve references -/

section Steps

variable {change : Engine.signature.Heard → State → State → Prop}
  {question : Engine.Request → State → State → Prop} {rely : State → State → Prop}

/-- Resolving a slot keeps to a conduct that allows filling it, and it fails for the sake
of its reference only. -/
theorem obeys_resolveSlot {part : Part (Got α) Cell} {described : Except Error (String × Nat)}
    {request : String → Operation (Option α)} {reference : String → Reference}
    (known : String → Engine.signature.Heard → Option α → Prop) (dangles : Dangles described)
    (resolves : ∀ descriptor, (request descriptor).Obeys (stateConduct change question rely)
      fun heard answer _ => known descriptor heard answer)
    (fills : ∀ heard descriptor index value (cell : Cell), described = .ok (descriptor, index) →
      known descriptor heard (some value) →
        change heard cell.state
          (part.set (Got.setIfNull index value (part.get cell)).2 cell).state) :
    (resolveSlot image part described request reference).Obeys (stateConduct change question rely)
      fun _ outcome _ => Dangles outcome := by
  cases described with
  | error reason =>
    exact fun heard cell => ⟨.refl, dangles_error.mpr (dangles_error.mp dangles)⟩
  | ok slot =>
    obtain ⟨descriptor, index⟩ := slot
    refine Action.Obeys.bind (follows_resolve (known descriptor) (resolves descriptor)
      fun heard value cell told => fills heard descriptor index value cell rfl told) ?_
    exact fun value heard cell _ => ⟨.refl, dangles_orUnresolved value _⟩

theorem andThen_dangles {first : Operation (Except Error α)} {second : Operation (Except Error β)}
    (early : first.Obeys (stateConduct change question rely) fun _ outcome _ => Dangles outcome)
    (late : second.Obeys (stateConduct change question rely) fun _ outcome _ => Dangles outcome) :
    (andThen first second).Obeys (stateConduct change question rely)
      fun _ outcome _ => Dangles outcome := by
  refine Action.Obeys.bind early fun outcome heard cell dangles => ?_
  cases outcome with
  | ok value => exact late heard cell
  | error reason => exact ⟨.refl, dangles_error.mpr (dangles_error.mp dangles)⟩

theorem forEach_dangles {step : α → Operation (Except Error β)} {items : List α}
    (each : ∀ item ∈ items, (step item).Obeys (stateConduct change question rely)
      fun _ outcome _ => Dangles outcome) :
    (forEach step items).Obeys (stateConduct change question rely)
      fun _ outcome _ => Dangles outcome := by
  induction items with
  | nil => exact fun heard cell => ⟨.refl, dangles_ok ()⟩
  | cons item rest ih =>
    obtain ⟨first, others⟩ := List.forall_mem_cons.mp each
    exact andThen_dangles first (ih others)

end Steps

/-! ## Filling the slots that are listed -/

/-- The metadata stays as it is, or a slot that one of the records lists is filled with
what the engine answered for it. -/
inductive Stores (image : Image) (view : ClassView) (records : CodeRecord → Prop)
    (heard : Engine.signature.Heard) (before after : State) : Prop where
  | aside (same : after.metadata = before.metadata)
  | fill {record : CodeRecord} {descriptor : String} {index : Nat} {value : MetadataRef}
    (among : records record) (lists : Lists image record descriptor index)
    (told : heard (.resolveMetadata descriptor view) (some value))
    (filled : after.metadata = (Got.setIfNull index value before.metadata).2)

/-- How linking a class treats the metadata. -/
def storeConduct (image : Image) (view : ClassView) (records : CodeRecord → Prop) :
    Conduct Engine.signature Cell :=
  stateConduct (Stores image view records) (fun _ before after => after.metadata = before.metadata)
    State.KeepsMetadata

section Stores

variable {records : CodeRecord → Prop}

/-- Resolving what the method of a record refers to fills the slots that it lists. -/
theorem resolveReferences_stores (among : records record)
    (detailed : image.library.detailOf record = .ok detail) :
    (resolveReferences image (slotNumber record) detail view).Obeys
      (storeConduct image view records) fun _ outcome _ => Dangles outcome := by
  rw [resolveReferences_eq]
  refine andThen_dangles (forEach_dangles fun index _ => ?classes)
    (andThen_dangles (forEach_dangles fun localIndex inside => ?metadata)
      (forEach_dangles fun index _ => ?objects))
  case classes =>
    rw [resolveMetaspace_eq]
    exact obeys_resolveSlot (fun name heard answer => heard (.findClass name view.loader) answer)
      ((dangles_indexedName image.library _ _).describedAt _)
      (fun name => obeys_ask fun _ => rfl) fun _ _ _ _ _ _ _ => .aside rfl
  case metadata =>
    rw [resolveMetadata_eq]
    exact obeys_resolveSlot
      (fun descriptor heard answer => heard (.resolveMetadata descriptor view) answer)
      (dangles_metadataSlot _ _ _) (fun descriptor => obeys_ask fun _ => rfl)
      fun heard descriptor index value cell named told =>
        .fill among ⟨detail, localIndex, detailed, List.mem_range.mp inside, named⟩ told rfl
  case objects =>
    rw [resolveObject_eq]
    exact obeys_resolveSlot (fun descriptor heard answer => heard (.resolveObject descriptor) answer)
      ((dangles_indexedName image.library _ _).describedAt _)
      (fun descriptor => obeys_ask fun _ => rfl) fun _ _ _ _ _ _ _ => .aside rfl

theorem publish_stores (code : LinkedCode) :
    (publish image code).Follows (storeConduct image view records) :=
  follows_publish (fun _ _ installed => installed.metadata) fun _ _ _ _ _ _ => .aside rfl

theorem publishMethod_stores (among : records record) :
    (publishMethod image entry view record).Follows (storeConduct image view records) := by
  refine follows_publishMethod (fun _ _ => rfl) fun name detail live _ detailed heard cell => ?_
  refine (resolveReferences_stores among detailed heard cell).weaken ?_
  exact fun later _ after _ _ _ code _ => publish_stores code later after

theorem afterMiss_stores (miss : Miss) :
    (afterMiss image view miss).Follows (storeConduct image view records) := by
  intro heard cell
  have revokes : (afterMiss image view miss).Follows (revokeConduct image State.KeepsMetadata) :=
    afterMiss_revokes miss
  refine (revokes heard cell).loosen ?_ ?_ fun _ _ keeps => keeps
  · rintro heard before after (same | revoked)
    · exact .inl same
    · exact .inr (.aside revoked.metadata)
  · exact fun _ _ _ _ asked => asked.metadata

/-- Once its class was matched, a load fills the slots that methods of the class list. -/
theorem finishLoad_stores {outcome : Except Miss ClassEntry}
    (listed : ∀ entry, outcome = .ok entry → ∀ record ∈ methods image entry, records record) :
    (finishLoad image view outcome).Follows (storeConduct image view records) := by
  refine follows_finishLoad (fun miss _ => afterMiss_stores miss)
    (follows_ensureRoutines (fun _ _ => rfl) (fun _ _ _ => .aside rfl) fun _ _ => .aside rfl) ?_
  intro entry all same read
  exact follows_publishMethods fun record member =>
    publishMethod_stores (listed entry same record (mem_methods.mpr ⟨all, read, member⟩))

/-- The slots that are filled when this is asked. -/
def Wrote (image : Image) (view : ClassView) (records : CodeRecord → Prop)
    (asked : List Engine.Request) (index : Nat) (_ : MetadataRef) : Prop :=
  ∃ record descriptor, records record ∧ Lists image record descriptor index ∧
    Engine.Request.resolveMetadata descriptor view ∈ asked

/-- What keeps to the conduct fills slots that are listed, and for each of them the engine
was asked. -/
theorem stores_filled {operation : Operation α} {post : Engine.signature.Heard → α → Cell → Prop}
    {result : α} (obeys : operation.Obeys (storeConduct image view records) post)
    (concludes : (operation cell).Concludes asked result last) :
    post (fun request _ => request ∈ asked) result last ∧
      Got.Filled (Wrote image view records asked) cell.state.metadata last.state.metadata := by
  refine concludes.obeyed
    (fun later => Got.Filled (Wrote image view records asked) cell.state.metadata
      later.state.metadata)
    (obeys _ cell) (fun later => State.KeepsMetadata.refl later.state)
    (fun request member _ => member) ?changed ?questioned (.refl _)
  case changed =>
    intro before after filled change
    rcases change with same | ⟨same⟩ | ⟨among, lists, told, stored⟩
    · rwa [same]
    · rwa [same]
    · rw [stored]
      exact filled.trans (Got.setIfNull_filled _ ⟨_, _, among, lists, told⟩)
  case questioned =>
    intro request before after filled same
    exact (show after.state.metadata = before.state.metadata from same) ▸ filled

end Stores

/-! ## Loads -/

/-- Whatever the engine answers, a load fills metadata slots that methods of the class
list and nothing else. -/
theorem loadClass_filled {outcome : Except Miss Nat}
    (concludes : (loadClass image view cell).Concludes asked outcome last) :
    Got.Filled (Wrote image view (fun record => ∃ entry,
        (admitted image view cell.state).1 = .ok entry ∧ record ∈ methods image entry) asked)
      cell.state.metadata last.state.metadata := by
  cases disabled : cell.state.linkageDisabled with
  | true =>
    rw [loadClass_disabled disabled] at concludes
    cases concludes
    exact .refl _
  | false =>
    obtain ⟨matched, middle, ran⟩ := resolveClass_silent image view cell
    have same := resolveClass_admits ran
    rw [loadClass_enabled disabled ran] at concludes
    have metadata : middle.state.metadata = cell.state.metadata := by
      rw [show middle.state = _ from congrArg Prod.snd same, admitted_frame]
    rw [← metadata]
    refine (stores_filled (finishLoad_stores fun entry found record member => ?_) concludes).2
    exact ⟨entry, by rw [← same, found], member⟩

/-! ## Refused methods -/

/-- When a method is refused for its geometry, all that it refers to was resolved. -/
theorem publishMethod_refused {library : String} {fault : FormatFault}
    (concludes : (publishMethod image entry view record cell).Concludes asked
      (.error (.format library fault)) last) :
    ¬image.Accepts record ∧ ∃ detail middle late, image.library.detailOf record = .ok detail ∧
      (resolveReferences image (slotNumber record) detail view middle).Concludes late (.ok ())
        last := by
  -- anything else that stops a method is about a reference
  have format : ∀ {library fault}, ¬Dangling (.format library fault) := nofun
  unfold publishMethod at concludes
  obtain ⟨_, phase, _, _, looked, concludes, -⟩ := concludes.parts
  cases looked
  split at concludes
  · cases concludes
  cases named : image.library.methodName record with
  | error reason =>
    rw [named] at concludes
    cases concludes
    exact absurd (dangles_reading _ _ _ named) format
  | ok name =>
    rw [named] at concludes
    obtain ⟨_, live, middle, _, found, concludes, -⟩ := concludes.parts
    obtain rfl : middle = cell := by
      cases found with
      | ask _ onward =>
        cases onward
        rfl
    cases live with
    | none =>
      obtain ⟨_, _, _, _, -, concludes, -⟩ := concludes.parts
      cases concludes
    | some live =>
      dsimp only at concludes
      split at concludes
      · cases concludes
      cases detailed : image.library.detailOf record with
      | error reason =>
        rw [detailed] at concludes
        cases concludes
        exact absurd (dangles_reading _ _ _ detailed) format
      | ok detail =>
        rw [detailed] at concludes
        obtain ⟨early, outcome, later, _, resolved, concludes, -⟩ := concludes.parts
        cases outcome with
        | error reason =>
          have stores : (resolveReferences image (slotNumber record) detail view).Obeys
              (storeConduct image view (· = record)) _ := resolveReferences_stores rfl detailed
          have dangling := dangles_error.mp (stores_filled stores resolved).1
          dsimp only at concludes
          generalize failed : inMethod name reason = failure at concludes
          cases concludes
          exact absurd (failed ▸ dangling.inMethod name) format
        | ok _ =>
          dsimp only at concludes
          cases placed : image.place record detail name (some live.method) (some view.klass)
              (some entry.classId) with
          | error reason =>
            rw [placed] at concludes
            cases concludes
            refine ⟨fun accepts => ?_, detail, middle, early, rfl, resolved⟩
            obtain ⟨other, code, read, there⟩ := (accepts_iff name _ _ _).mp accepts
            obtain rfl := Except.ok.inj (detailed.symm.trans read)
            cases placed.symm.trans there
          | ok code =>
            rw [placed] at concludes
            obtain ⟨_, publication, _, _, -, concludes, -⟩ := concludes.parts
            cases publication <;> cases concludes

/-! ## What linking a class may write to -/

/-- Metadata slots that a load changed were null. Each of them is listed by a method of
the class that was matched, the engine was asked for it, and it lies where sound methods
of the class have theirs, unless what is kept for the method's code id is a stray. -/
structure Confined (image : Image) (view : ClassView) (before : State)
    (asked : List Engine.Request) (after : State) : Prop where
  size : after.metadata.size = before.metadata.size
  changed : ∀ index, after.metadata.get index ≠ before.metadata.get index →
    before.metadata.get index = none ∧ ∃ entry record descriptor,
      (admitted image view before).1 = .ok entry ∧ record ∈ methods image entry ∧
      Lists image record descriptor index ∧
      Engine.Request.resolveMetadata descriptor view ∈ asked ∧
      ((∃ own ∈ methods image entry, image.Accepts own ∧ Declares own index) ∨
        Stray image entry record)

/-- What an attempt to link a method leaves behind that is refused for its geometry. The
slots that the method lists hold values, no others were filled, and so the metadata is
as it was exactly if they all held values before. -/
structure Residue (image : Image) (view : ClassView) (record : CodeRecord) (before : State)
    (asked : List Engine.Request) (after : State) : Prop where
  refused : ¬image.Accepts record
  held : ∀ descriptor index, Lists image record descriptor index →
    ∃ value, after.metadata.get index = some value
  changed : ∀ index, after.metadata.get index ≠ before.metadata.get index →
    before.metadata.get index = none ∧ ∃ descriptor, Lists image record descriptor index ∧
      Engine.Request.resolveMetadata descriptor view ∈ asked
  same : after.metadata = before.metadata ↔
    ∀ descriptor index, Lists image record descriptor index →
      ∃ value, before.metadata.get index = some value

theorem publishMethod_residue {library : String} {fault : FormatFault}
    (concludes : (publishMethod image entry view record cell).Concludes asked
      (.error (.format library fault)) last) :
    Residue image view record cell.state asked last.state := by
  obtain ⟨refused, detail, middle, late, detailed, resolved⟩ := publishMethod_refused concludes
  have stores : (publishMethod image entry view record).Follows
      (storeConduct image view (· = record)) := publishMethod_stores rfl
  have filled := (stores_filled stores concludes).2
  have held : ∀ descriptor index, Lists image record descriptor index →
      ∃ value, last.state.metadata.get index = some value := by
    have shows : (resolveReferences image (slotNumber record) detail view).Obeys
        (linkConduct image (fun _ => False) State.KeepsMetadata) _ :=
      resolveReferences_shows _ detail view
    obtain ⟨there, -⟩ := resolved.obeyed (fun _ => True) (shows _ middle)
      (fun later => State.KeepsMetadata.refl later.state) (fun request member _ => member)
      (fun _ _ => trivial) (fun _ _ => trivial) trivial
    rintro descriptor index ⟨other, localIndex, read, inside, slot⟩
    obtain rfl := Except.ok.inj (detailed.symm.trans read)
    obtain ⟨_, _, value, named, held⟩ := there rfl localIndex (List.mem_range.mpr inside)
    obtain ⟨-, rfl⟩ := Prod.mk.inj (Except.ok.inj (slot.symm.trans named))
    exact ⟨value, held⟩
  have changed : ∀ index, last.state.metadata.get index ≠ cell.state.metadata.get index →
      cell.state.metadata.get index = none ∧ ∃ descriptor, Lists image record descriptor index ∧
        Engine.Request.resolveMetadata descriptor view ∈ asked := by
    intro index differs
    obtain ⟨null, _, _, descriptor, rfl, lists, told⟩ := filled.changed differs
    exact ⟨null, descriptor, lists, told⟩
  refine ⟨refused, held, changed, fun same => same ▸ held, fun before => ?_⟩
  refine Got.ext_get filled.size fun index => Decidable.byContradiction fun differs => ?_
  obtain ⟨null, descriptor, lists, -⟩ := changed index differs
  obtain ⟨value, there⟩ := before descriptor index lists
  cases null.symm.trans there

theorem loadClass_confined {stubs : List CodeRecord} {library : Library}
    {outcome : Except Miss Nat} (prepared : prepare library = .ok (image, stubs))
    (concludes : (loadClass image view cell).Concludes asked outcome last) :
    Confined image view cell.state asked last.state := by
  have filled := loadClass_filled concludes
  refine ⟨filled.size, fun index differs => ?_⟩
  obtain ⟨null, _, record, descriptor, ⟨entry, matched, member⟩, lists, told⟩ :=
    filled.changed differs
  have known : image.classEntry? entry.classId = some entry :=
    admitted_known (Prod.ext matched rfl)
  exact ⟨null, entry, record, descriptor, matched, member, lists, told,
    lists.declared prepared known⟩

/-- Whatever the blob says, whatever state its heap is in and whatever the engine answers,
loading a class writes to metadata slots only that methods of the class list, each of
them in place or astray, and an attempt that is refused for its geometry leaves values
in the slots of its method. -/
theorem metadata_confined {library : Library} {heap : Heap} {journal : Journal}
    (created : ((Heap.create library).run journal).1 = .ok heap) :
    (∀ {view cell asked outcome last},
      (loadClass heap.image view cell).Concludes asked outcome last →
        Confined heap.image view cell.state asked last.state) ∧
    ∀ {entry view record cell asked fault name last},
      (publishMethod heap.image entry view record cell).Concludes asked
        (.error (.format heap.image.library.name (.geometry fault name))) last →
          Residue heap.image view record cell.state asked last.state := by
  obtain ⟨stubs, prepared, -⟩ := create_ok.mp created
  exact ⟨loadClass_confined prepared, publishMethod_residue⟩

/-! ## A misplaced method -/

/-- Two classes, each with a method that has one metadata slot. -/
def bystanders : List Edit :=
  [.addClass "A" 7, .addClass "C" 8,
   .addMethod 0 { name := "m", signature := "()V", metadata := ["x"] },
   .addMethod 1 { name := "n", signature := "()V", metadata := ["y"] }]

/-- Their blob, in which the record of the first method says that it has no metadata slot
and begins with that of the second one. -/
def misplaced : Bytes :=
  Damage.patch (Draft.describe {} "1" bystanders).assemble 344 [1, 0, 0, 0, 0, 0, 0, 0]

/-- An engine that knows both descriptors. -/
def labelTable : Engine.Table
  | .resolveMetadata "x" _ => Handle.ofRaw? 10
  | .resolveMetadata "y" _ => Handle.ofRaw? 20
  | request => rivalTable request

/-- The heap after the first class was loaded, and after both were. -/
def bystanderCells (heap : Heap) : Cell × Cell :=
  let before := ((loadClass heap.image rivalA).finish labelTable ⟨heap.state, {}, []⟩).2
  (before, ((loadClass heap.image rivalC).finish labelTable before).2)

/-- Why the method of the first class is refused. -/
def misplacement (library : String) : Error :=
  .format library (.geometry .metadataRange { holder := "A", name := "m", signature := "()V" })

set_option maxRecDepth 1000000 in
theorem bystanders_linked : (linked? misplaced).any (fun linked =>
    let heap := linked.2
    let (before, after) := bystanderCells heap
    heap.state.metadata.get 1 == none && before.state.metadata.get 1 == Handle.ofRaw? 10 &&
      after.state.metadata.get 1 == Handle.ofRaw? 10 &&
      after.state.phase? 1 == some .resolved &&
      (Operation.asked labelTable (loadClass heap.image rivalC) before).all
        (fun request => !request matches .resolveMetadata _ _) &&
      (admitted heap.image rivalA heap.state).1.toOption.any fun entry =>
        match methods heap.image entry with
        | [record] =>
          let (outcome, last) :=
            (publishMethod heap.image entry rivalA record).finish labelTable ⟨heap.state, {}, []⟩
          natural? record.metadataCount == some 0 &&
            outcome == .error (misplacement heap.image.library.name) &&
            last.state.metadata.get 1 == Handle.ofRaw? 10
        | _ => false) = true := by
  decide +kernel

/-- The refused method of the first class fills the slot of the second one, where no method
of its own class has metadata. The second method is then published with the value that
was meant for the first one, and the engine is not asked for its own. -/
theorem metadata_trespassed : ∃ (library : Library) (heap : Heap),
    ((Library.load misplaced "lib" 0 { verifyChecksum := false }).run []).1 = .ok library ∧
    ((Heap.create library).run []).1 = .ok heap ∧
    (∃ entry record asked last, (admitted heap.image rivalA heap.state).1 = .ok entry ∧
      methods heap.image entry = [record] ∧ ¬Declares record 1 ∧
      (publishMethod heap.image entry rivalA record ⟨heap.state, {}, []⟩).Concludes asked
        (.error (misplacement heap.image.library.name)) last ∧
      last.state.metadata ≠ heap.state.metadata) ∧
    ∃ asked outcome before others reply after,
      (loadClass heap.image rivalA ⟨heap.state, {}, []⟩).Concludes asked outcome before ∧
      before.state.metadata.get 1 ≠ heap.state.metadata.get 1 ∧
      (loadClass heap.image rivalC before).Concludes others reply after ∧
      after.state.phase? 1 = some .resolved ∧
      after.state.metadata.get 1 = before.state.metadata.get 1 ∧
      ∀ descriptor holder, Engine.Request.resolveMetadata descriptor holder ∉ others := by
  obtain ⟨⟨library, heap⟩, linked, checked⟩ := (Option.any_eq_true _ _).mp bystanders_linked
  obtain ⟨loaded, created⟩ := linked_some linked
  simp only [Bool.and_eq_true, beq_iff_eq, Option.any_eq_true, List.all_eq_true] at checked
  obtain ⟨⟨⟨⟨⟨null, filled⟩, still⟩, resolved⟩, silent⟩, entry, matched, attempt⟩ := checked
  refine ⟨library, heap, loaded, created, ?refused, ?loads⟩
  case refused =>
    split at attempt
    · next record only =>
      simp only [Bool.and_eq_true, beq_iff_eq] at attempt
      obtain ⟨⟨none, outcome⟩, written⟩ := attempt
      have concludes := Dialogue.Concludes.of_table labelTable
        (publishMethod heap.image entry rivalA record ⟨heap.state, {}, []⟩)
      refine ⟨entry, record, _, _, Outcome.toOption_some.mp matched, only, ?_, outcome ▸ concludes,
        fun same => ?_⟩
      · rintro ⟨start, count, -, counted, lower, upper⟩
        obtain rfl := Option.some.inj (none.symm.trans counted)
        omega
      · have impossible := (written.symm.trans (congrArg (Got.get · 1) same)).trans null
        cases impossible
    · cases attempt
  case loads =>
    have first := Dialogue.Concludes.of_table labelTable
      (loadClass heap.image rivalA ⟨heap.state, {}, []⟩)
    have second := Dialogue.Concludes.of_table labelTable
      (loadClass heap.image rivalC (bystanderCells heap).1)
    refine ⟨_, _, (bystanderCells heap).1, _, _, (bystanderCells heap).2, first, ?_, second,
      resolved, still.trans filled.symm, fun descriptor holder member => ?_⟩
    · intro same
      cases (filled.symm.trans same).trans null
    · cases silent _ member

theorem metadata_confined_bystanders : ∃ (library : Library) (heap : Heap),
    ((Heap.create library).run []).1 = .ok heap ∧
    (∃ asked outcome, ∃ last : Cell,
      (loadClass heap.image rivalA ⟨heap.state, {}, []⟩).Concludes asked outcome last ∧
        last.state.metadata.get 1 = Handle.ofRaw? 10 ∧
        Confined heap.image rivalA heap.state asked last.state) ∧
    ∃ entry, ∃ record ∈ methods heap.image entry, ∃ asked, ∃ last : Cell,
      last.state.metadata.get 1 = Handle.ofRaw? 10 ∧
        Residue heap.image rivalA record heap.state asked last.state := by
  obtain ⟨⟨library, heap⟩, linked, checked⟩ := (Option.any_eq_true _ _).mp bystanders_linked
  obtain ⟨-, created⟩ := linked_some linked
  simp only [Bool.and_eq_true, beq_iff_eq, Option.any_eq_true] at checked
  obtain ⟨⟨⟨⟨⟨-, filled⟩, -⟩, -⟩, -⟩, entry, -, attempt⟩ := checked
  have concludes := Dialogue.Concludes.of_table labelTable
    (loadClass heap.image rivalA ⟨heap.state, {}, []⟩)
  refine ⟨library, heap, created, ⟨_, _, _, concludes, filled, (metadata_confined created).1 concludes⟩,
    ?_⟩
  split at attempt
  · next record only =>
    simp only [Bool.and_eq_true, beq_iff_eq] at attempt
    obtain ⟨⟨-, outcome⟩, written⟩ := attempt
    have refused := Dialogue.Concludes.of_table labelTable
      (publishMethod heap.image entry rivalA record ⟨heap.state, {}, []⟩)
    exact ⟨entry, record, only ▸ List.mem_singleton_self record, _, _, written,
      (metadata_confined created).2 (outcome ▸ refused)⟩
  · cases attempt

end Precompiled.Heap
