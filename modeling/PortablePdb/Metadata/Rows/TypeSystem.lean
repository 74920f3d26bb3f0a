import PortablePdb.Metadata.Row

namespace PortablePdb

/-- The row of the module itself. -/
structure ModuleRow where
  rid : UInt32
  generation : UInt16
  name : UInt32
  mvid : UInt32
  encId : UInt32
  encBaseId : UInt32
  deriving DecidableEq, Repr

instance : Row ModuleRow where
  table := .module
  rid row := row.rid
  size layout := 2 + layout.stringIndexBytes + layout.guidIndexBytes + layout.guidIndexBytes +
      layout.guidIndexBytes
  read layout rid := do
    return {
      rid
      generation := ← Reader.le16
      name := ← Index.read layout.wideStrings
      mvid := ← Index.read layout.wideGuids
      encId := ← Index.read layout.wideGuids
      encBaseId := ← Index.read layout.wideGuids }

/-- A type. Its fields and methods are runs of rows that start at the given ones. -/
structure TypeDefRow where
  rid : UInt32
  flags : UInt32
  typeName : UInt32
  typeNamespace : UInt32
  baseType : CodedIndex
  fieldList : UInt32
  methodList : UInt32
  deriving DecidableEq, Repr

instance : Row TypeDefRow where
  table := .typeDef
  rid row := row.rid
  size layout := 4 + layout.stringIndexBytes + layout.stringIndexBytes +
      layout.codedIndexBytes .typeDefOrRef + layout.rowIndexBytes .field +
      layout.rowIndexBytes .methodDef
  read layout rid := do
    return {
      rid
      flags := ← Reader.le32
      typeName := ← Index.read layout.wideStrings
      typeNamespace := ← Index.read layout.wideStrings
      baseType := ← CodedIndex.read layout .typeDefOrRef
      fieldList := ← Index.read (layout.isLarge .field)
      methodList := ← Index.read (layout.isLarge .methodDef) }

/-- A method, with the address of its body. -/
structure MethodDefRow where
  rid : UInt32
  rva : UInt32
  implFlags : UInt16
  flags : UInt16
  name : UInt32
  signature : UInt32
  paramList : UInt32
  deriving DecidableEq, Repr

instance : Row MethodDefRow where
  table := .methodDef
  rid row := row.rid
  size layout := 4 + 2 + 2 + layout.stringIndexBytes + layout.blobIndexBytes +
      layout.rowIndexBytes .param
  read layout rid := do
    return {
      rid
      rva := ← Reader.le32
      implFlags := ← Reader.le16
      flags := ← Reader.le16
      name := ← Index.read layout.wideStrings
      signature := ← Index.read layout.wideBlobs
      paramList := ← Index.read (layout.isLarge .param) }

/-- A type that is declared within another one. -/
structure NestedClassRow where
  rid : UInt32
  nestedClass : UInt32
  enclosingClass : UInt32
  deriving DecidableEq, Repr

instance : Row NestedClassRow where
  table := .nestedClass
  rid row := row.rid
  size layout := layout.rowIndexBytes .typeDef + layout.rowIndexBytes .typeDef
  read layout rid := do
    return {
      rid
      nestedClass := ← Index.read (layout.isLarge .typeDef)
      enclosingClass := ← Index.read (layout.isLarge .typeDef) }

end PortablePdb
