/-!
# Metadata tables

The tables of ECMA-335 and of the portable debug format: their numbers, names and columns. Every table with rows has to
be sized to find the next one, so the schema is complete although look-ups read only two tables. Main statement:
`TableKind.ofNumber?_number`, a table is found under its number.
-/

namespace Symbolicate.PortablePdb

/-! ## Tables -/

/-- The tables that a table stream may hold or refer to. -/
inductive TableKind where
  | moduleDef | typeRef | typeDef | fieldPtr | field | methodPtr | methodDef | paramPtr | param | interfaceImpl
  | memberRef | constant | customAttribute | fieldMarshal | declSecurity | classLayout | fieldLayout | standAloneSig
  | eventMap | eventPtr | event | propertyMap | propertyPtr | property | methodSemantics | methodImpl | moduleRef
  | typeSpec | implMap | fieldRva | encLog | encMap | assembly | assemblyProcessor | assemblyOs | assemblyRef
  | assemblyRefProcessor | assemblyRefOs | file | exportedType | manifestResource | nestedClass | genericParam
  | methodSpec | genericParamConstraint
  | document | methodDebugInformation | localScope | localVariable | localConstant | importScope
  | stateMachineMethod | customDebugInformation
  deriving DecidableEq, Repr

namespace TableKind

def all : List TableKind := [
  moduleDef, typeRef, typeDef, fieldPtr, field, methodPtr, methodDef, paramPtr, param, interfaceImpl, memberRef,
  constant, customAttribute, fieldMarshal, declSecurity, classLayout, fieldLayout, standAloneSig, eventMap, eventPtr,
  event, propertyMap, propertyPtr, property, methodSemantics, methodImpl, moduleRef, typeSpec, implMap, fieldRva,
  encLog, encMap, assembly, assemblyProcessor, assemblyOs, assemblyRef, assemblyRefProcessor, assemblyRefOs, file,
  exportedType, manifestResource, nestedClass, genericParam, methodSpec, genericParamConstraint, document,
  methodDebugInformation, localScope, localVariable, localConstant, importScope, stateMachineMethod,
  customDebugInformation]

/-- The number of a table, which is its place in bit vectors and in tokens. -/
def number : TableKind → Nat
  | moduleDef => 0x00 | typeRef => 0x01 | typeDef => 0x02 | fieldPtr => 0x03 | field => 0x04 | methodPtr => 0x05
  | methodDef => 0x06 | paramPtr => 0x07 | param => 0x08 | interfaceImpl => 0x09 | memberRef => 0x0A
  | constant => 0x0B | customAttribute => 0x0C | fieldMarshal => 0x0D | declSecurity => 0x0E | classLayout => 0x0F
  | fieldLayout => 0x10 | standAloneSig => 0x11 | eventMap => 0x12 | eventPtr => 0x13 | event => 0x14
  | propertyMap => 0x15 | propertyPtr => 0x16 | property => 0x17 | methodSemantics => 0x18 | methodImpl => 0x19
  | moduleRef => 0x1A | typeSpec => 0x1B | implMap => 0x1C | fieldRva => 0x1D | encLog => 0x1E | encMap => 0x1F
  | assembly => 0x20 | assemblyProcessor => 0x21 | assemblyOs => 0x22 | assemblyRef => 0x23
  | assemblyRefProcessor => 0x24 | assemblyRefOs => 0x25 | file => 0x26 | exportedType => 0x27
  | manifestResource => 0x28 | nestedClass => 0x29 | genericParam => 0x2A | methodSpec => 0x2B
  | genericParamConstraint => 0x2C | document => 0x30 | methodDebugInformation => 0x31 | localScope => 0x32
  | localVariable => 0x33 | localConstant => 0x34 | importScope => 0x35 | stateMachineMethod => 0x36
  | customDebugInformation => 0x37

/-- The table with a number; the numbers from 0x2D to 0x2F and from 0x38 on are free. -/
def ofNumber? (n : Nat) : Option TableKind := all.find? (·.number == n)

theorem ofNumber?_number (k : TableKind) : ofNumber? k.number = some k := by
  cases k <;> rfl

def name : TableKind → String
  | moduleDef => "Module" | typeRef => "TypeRef" | typeDef => "TypeDef" | fieldPtr => "FieldPtr" | field => "Field"
  | methodPtr => "MethodPtr" | methodDef => "MethodDef" | paramPtr => "ParamPtr" | param => "Param"
  | interfaceImpl => "InterfaceImpl" | memberRef => "MemberRef" | constant => "Constant"
  | customAttribute => "CustomAttribute" | fieldMarshal => "FieldMarshal" | declSecurity => "DeclSecurity"
  | classLayout => "ClassLayout" | fieldLayout => "FieldLayout" | standAloneSig => "StandAloneSig"
  | eventMap => "EventMap" | eventPtr => "EventPtr" | event => "Event" | propertyMap => "PropertyMap"
  | propertyPtr => "PropertyPtr" | property => "Property" | methodSemantics => "MethodSemantics"
  | methodImpl => "MethodImpl" | moduleRef => "ModuleRef" | typeSpec => "TypeSpec" | implMap => "ImplMap"
  | fieldRva => "FieldRva" | encLog => "EncLog" | encMap => "EncMap" | assembly => "Assembly"
  | assemblyProcessor => "AssemblyProcessor" | assemblyOs => "AssemblyOs" | assemblyRef => "AssemblyRef"
  | assemblyRefProcessor => "AssemblyRefProcessor" | assemblyRefOs => "AssemblyRefOs" | file => "File"
  | exportedType => "ExportedType" | manifestResource => "ManifestResource" | nestedClass => "NestedClass"
  | genericParam => "GenericParam" | methodSpec => "MethodSpec"
  | genericParamConstraint => "GenericParamConstraint" | document => "Document"
  | methodDebugInformation => "MethodDebugInformation" | localScope => "LocalScope"
  | localVariable => "LocalVariable" | localConstant => "LocalConstant" | importScope => "ImportScope"
  | stateMachineMethod => "StateMachineMethod" | customDebugInformation => "CustomDebugInformation"

end TableKind

/-! ## Columns -/

/-- A reference to a row of one of several tables: the low `tagBits` bits choose the table. -/
structure CodedIndex where
  tagBits : Nat
  targets : List TableKind

/-- What a column holds, which decides its width. -/
inductive Column where
  /-- A constant of so many bytes. -/
  | fixed (width : Nat)
  /-- An offset in the heap of strings. -/
  | stringHeap
  /-- A place in the heap of GUIDs. -/
  | guidHeap
  /-- An offset in the heap of blobs. -/
  | blobHeap
  /-- A row of a table. -/
  | row (table : TableKind)
  /-- A row of one of several tables. -/
  | coded (index : CodedIndex)

namespace CodedIndex

open TableKind

/-- Where a referenced type is found. -/
def resolutionScope : CodedIndex := ⟨2, [moduleDef, moduleRef, assemblyRef, typeRef]⟩

/-- A type, defined here or elsewhere. -/
def typeDefOrRef : CodedIndex := ⟨2, [typeDef, typeRef, typeSpec]⟩

/-- What a referenced member belongs to. -/
def memberRefParent : CodedIndex := ⟨3, [typeDef, typeRef, moduleRef, methodDef, typeSpec]⟩

/-- What a constant belongs to. -/
def hasConstant : CodedIndex := ⟨2, [field, param, property]⟩

/-- The tables whose rows may carry attributes. -/
def attributed : List TableKind := [
  methodDef, field, typeRef, typeDef, param, interfaceImpl, memberRef, moduleDef, declSecurity, property, event,
  standAloneSig, moduleRef, typeSpec, assembly, assemblyRef, file, exportedType, manifestResource, genericParam,
  genericParamConstraint, methodSpec]

/-- What an attribute belongs to. -/
def hasCustomAttribute : CodedIndex := ⟨5, attributed⟩

/-- The constructor of an attribute; the tags 0, 1 and 4 have no table. -/
def customAttributeType : CodedIndex := ⟨3, [methodDef, memberRef]⟩

/-- What a marshalling rule belongs to. -/
def hasFieldMarshal : CodedIndex := ⟨1, [field, param]⟩

/-- What a security declaration belongs to. -/
def hasDeclSecurity : CodedIndex := ⟨2, [typeDef, methodDef, assembly]⟩

/-- What an accessor belongs to. -/
def hasSemantics : CodedIndex := ⟨1, [event, property]⟩

/-- A method, defined here or elsewhere. -/
def methodDefOrRef : CodedIndex := ⟨1, [methodDef, memberRef]⟩

/-- A member that is forwarded to native code. -/
def memberForwarded : CodedIndex := ⟨1, [field, methodDef]⟩

/-- Where an exported type or a resource is found. -/
def implementation : CodedIndex := ⟨2, [file, assemblyRef, exportedType]⟩

/-- What a generic parameter belongs to. -/
def typeOrMethodDef : CodedIndex := ⟨1, [typeDef, methodDef]⟩

/-- What a piece of custom debug information belongs to. -/
def hasCustomDebugInformation : CodedIndex :=
  ⟨5, attributed ++ [document, localScope, localVariable, localConstant, importScope]⟩

end CodedIndex

open Column CodedIndex in
def TableKind.columns : TableKind → List Column
  | .moduleDef => [fixed 2, stringHeap, guidHeap, guidHeap, guidHeap]
  | .typeRef => [coded resolutionScope, stringHeap, stringHeap]
  | .typeDef => [fixed 4, stringHeap, stringHeap, coded typeDefOrRef, row .field, row .methodDef]
  | .fieldPtr => [row .field]
  | .field => [fixed 2, stringHeap, blobHeap]
  | .methodPtr => [row .methodDef]
  | .methodDef => [fixed 4, fixed 2, fixed 2, stringHeap, blobHeap, row .param]
  | .paramPtr => [row .param]
  | .param => [fixed 2, fixed 2, stringHeap]
  | .interfaceImpl => [row .typeDef, coded typeDefOrRef]
  | .memberRef => [coded memberRefParent, stringHeap, blobHeap]
  | .constant => [fixed 2, coded hasConstant, blobHeap]
  | .customAttribute => [coded hasCustomAttribute, coded customAttributeType, blobHeap]
  | .fieldMarshal => [coded hasFieldMarshal, blobHeap]
  | .declSecurity => [fixed 2, coded hasDeclSecurity, blobHeap]
  | .classLayout => [fixed 2, fixed 4, row .typeDef]
  | .fieldLayout => [fixed 4, row .field]
  | .standAloneSig => [blobHeap]
  | .eventMap => [row .typeDef, row .event]
  | .eventPtr => [row .event]
  | .event => [fixed 2, stringHeap, coded typeDefOrRef]
  | .propertyMap => [row .typeDef, row .property]
  | .propertyPtr => [row .property]
  | .property => [fixed 2, stringHeap, blobHeap]
  | .methodSemantics => [fixed 2, row .methodDef, coded hasSemantics]
  | .methodImpl => [row .typeDef, coded methodDefOrRef, coded methodDefOrRef]
  | .moduleRef => [stringHeap]
  | .typeSpec => [blobHeap]
  | .implMap => [fixed 2, coded memberForwarded, stringHeap, row .moduleRef]
  | .fieldRva => [fixed 4, row .field]
  | .encLog => [fixed 4, fixed 4]
  | .encMap => [fixed 4]
  | .assembly => [fixed 4, fixed 8, fixed 4, blobHeap, stringHeap, stringHeap]
  | .assemblyProcessor => [fixed 4]
  | .assemblyOs => [fixed 4, fixed 4, fixed 4]
  | .assemblyRef => [fixed 8, fixed 4, blobHeap, stringHeap, stringHeap, blobHeap]
  | .assemblyRefProcessor => [fixed 4, row .assemblyRef]
  | .assemblyRefOs => [fixed 4, fixed 4, fixed 4, row .assemblyRef]
  | .file => [fixed 4, stringHeap, blobHeap]
  | .exportedType => [fixed 4, fixed 4, stringHeap, stringHeap, coded implementation]
  | .manifestResource => [fixed 4, fixed 4, stringHeap, coded implementation]
  | .nestedClass => [row .typeDef, row .typeDef]
  | .genericParam => [fixed 2, fixed 2, coded typeOrMethodDef, stringHeap]
  | .methodSpec => [coded methodDefOrRef, blobHeap]
  | .genericParamConstraint => [row .genericParam, coded typeDefOrRef]
  | .document => [blobHeap, guidHeap, blobHeap, guidHeap]
  | .methodDebugInformation => [row .document, blobHeap]
  | .localScope => [row .methodDef, row .importScope, row .localVariable, row .localConstant, fixed 4, fixed 4]
  | .localVariable => [fixed 2, fixed 2, stringHeap]
  | .localConstant => [stringHeap, blobHeap]
  | .importScope => [row .importScope, blobHeap]
  | .stateMachineMethod => [row .methodDef, row .methodDef]
  | .customDebugInformation => [coded hasCustomDebugInformation, guidHeap, blobHeap]

end Symbolicate.PortablePdb
