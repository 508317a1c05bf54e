import Precompiled.Compatibility
import Precompiled.Inspection.Failure
import Precompiled.Settings.BuildFields
import Precompiled.Text.Quoted

/-! The records of a blob and whole libraries as trees. -/
namespace Precompiled

open Blob

/-! ## Records -/

instance : Inspect Header := ⟨fun header => .record [
  ("magic", .bytes (word64 header.magic)),
  ("version", inspect header.version),
  ("class_count", inspect header.classCount),
  ("method_count", inspect header.slotCount),
  ("metaspace_got_size", inspect header.metaspaceSize),
  ("metadata_got_size", inspect header.metadataSize),
  ("oop_got_size", inspect header.objectSize),
  ("engine_version_offset", inspect header.engineVersionOffset),
  ("symbol_table_offset", inspect header.symbolsOffset),
  ("symbol_count", inspect header.symbolCount),
  ("names_offset", inspect header.namesOffset),
  ("names_size", inspect header.namesSize),
  ("checksum", inspect header.checksum)]⟩

def Blob.SymbolKind.label : SymbolKind → String
  | .table => "Section"
  | .classRecord => "Klass"

instance : Inspect SymbolEntry := ⟨fun entry => .record [
  ("name_offset", inspect entry.nameOffset),
  ("kind", .text entry.kind.label),
  ("offset", inspect entry.offset),
  ("size", inspect entry.size)]⟩

instance : Inspect ClassRecord := ⟨fun record => .record [
  ("got_index", inspect record.gotIndex),
  ("class_id", inspect record.classId),
  ("compiled_methods_offset", inspect record.methodsOffset),
  ("dependent_methods_offset", inspect record.dependentsOffset),
  ("fingerprint", inspect record.fingerprint)]⟩

instance : Inspect CodeRecord := ⟨fun record => .record [
  ("name_offset", inspect record.nameOffset),
  ("code_offset", inspect record.codeOffset),
  ("meta_offset", inspect record.detailOffset),
  ("metadata_got_offset", inspect record.metadataStart),
  ("metadata_got_size", inspect record.metadataCount),
  ("code_id", inspect record.codeId)]⟩

instance : Inspect CodeDetail := ⟨fun detail => .record [
  ("code_size", inspect detail.codeSize),
  ("entry_offset", inspect detail.entryOffset),
  ("verified_entry_offset", inspect detail.verifiedEntryOffset),
  ("frame_size", inspect detail.frameSize),
  ("metadata_names", inspect detail.metadataNames),
  ("klass_refs", inspect detail.classRefs),
  ("oop_refs", inspect detail.objectRefs)]⟩

instance : Inspect MethodName := ⟨fun name => .record [
  ("class", .text name.holder),
  ("name", .text name.name),
  ("signature", .text name.signature),
  ("display", .text name.display)]⟩

instance : Inspect ExportedSymbol := ⟨fun symbol => .record [
  ("kind", .text symbol.kind.label),
  ("offset", inspect symbol.offset),
  ("size", inspect symbol.size)]⟩

/-! ## Libraries -/

/-- A kind of value with some of its fields, on one line. -/
def describe (kind : String) (fields : List (String × String)) : String :=
  kind ++ " \x7b " ++
    ", ".intercalate (fields.map fun (field, value) => field ++ ": " ++ value) ++ " \x7d"

def describeFlag (value : Bool) : String :=
  if value then "true" else "false"

namespace Library

variable (library : Library)

/-- A library on one line. -/
def diagnostic : String :=
  describe "AotLib"
    [("name", Text.quoted library.name), ("id", toString library.id),
     ("size", toString library.bytes.length), ("valid", describeFlag library.valid)]

instance : Inspect Library := ⟨fun library => .record [
  ("name", .text library.name),
  ("id", inspect library.id),
  ("valid", .flag library.valid),
  ("engine_version", .text library.engineVersion),
  ("header", inspect library.header),
  ("config", inspect library.settings),
  ("code_size", inspect library.codeSize),
  ("code_crc32", inspect (Checksum.crc32 library.contents.code)),
  ("mapped", .flag library.mapped),
  ("segments", .bytes library.contents.segments),
  ("debug", .text library.diagnostic)]⟩

/-- A code record with all that the blob says about the code. -/
def codeTree (record : CodeRecord) : Tree :=
  .record [
    ("record", inspect record),
    ("name", inspect (library.methodName record)),
    ("meta", inspect (library.detailOf record))]

/-- A class record with its code and its dependents. -/
def classTree (record : ClassRecord) : Tree :=
  .record [
    ("record", inspect record),
    ("methods", inspect ((library.methodsOf record).map (List.map library.codeTree))),
    ("dependents", inspect (library.dependentsOf record))]

/-- Everything that the sections of a library hold. What cannot be decoded is
shown as the failure to decode it. -/
def dump : Tree :=
  .record [
    ("classes", inspect ((List.range library.header.classCount.toNat).map fun classId =>
      (library.classRecord classId).map library.classTree)),
    ("stubs", inspect (library.stubRecords.map (List.map library.codeTree))),
    ("links", inspect library.routines),
    ("metaspace", inspect ((List.range library.header.metaspaceSize.toNat).map
      library.metaspaceName)),
    ("oops", inspect ((List.range library.header.objectSize.toNat).map library.objectName))]

end Library

end Precompiled
