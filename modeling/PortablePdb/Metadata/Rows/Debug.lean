import PortablePdb.Metadata.Row

namespace PortablePdb

/-- A source document. -/
structure DocumentRow where
  rid : UInt32
  name : UInt32
  hashAlgorithm : UInt32
  hash : UInt32
  language : UInt32
  deriving DecidableEq, Repr

instance : Row DocumentRow where
  table := .document
  rid row := row.rid
  size layout := layout.blobIndexBytes + layout.guidIndexBytes + layout.blobIndexBytes +
      layout.guidIndexBytes
  read layout rid := do
    return {
      rid
      name := ← Index.read layout.wideBlobs
      hashAlgorithm := ← Index.read layout.wideGuids
      hash := ← Index.read layout.wideBlobs
      language := ← Index.read layout.wideGuids }

instance : WritableRow DocumentRow where
  encode layout row := do
    return (← Index.encode layout.wideBlobs row.name) ++
      (← Index.encode layout.wideGuids row.hashAlgorithm) ++
      (← Index.encode layout.wideBlobs row.hash) ++ (← Index.encode layout.wideGuids row.language)

instance : InPlaceRow DocumentRow where
  columns layout row :=
    [Index.encode layout.wideBlobs row.name, Index.encode layout.wideGuids row.hashAlgorithm,
      Index.encode layout.wideBlobs row.hash, Index.encode layout.wideGuids row.language]
  encode_eq _ _ := by
    simp [WritableRow.encode, encodeColumns, Array.append_assoc]

/-- The sequence points of the method of the same row. -/
structure MethodDebugRow where
  rid : UInt32
  document : UInt32
  sequencePoints : UInt32
  deriving DecidableEq, Repr

instance : Row MethodDebugRow where
  table := .methodDebugInformation
  rid row := row.rid
  size layout := layout.rowIndexBytes .document + layout.blobIndexBytes
  read layout rid := do
    return {
      rid
      document := ← Index.read (layout.isLarge .document)
      sequencePoints := ← Index.read layout.wideBlobs }

instance : WritableRow MethodDebugRow where
  encode layout row := do
    return (← Index.encode (layout.isLarge .document) row.document) ++
      (← Index.encode layout.wideBlobs row.sequencePoints)

instance : InPlaceRow MethodDebugRow where
  columns layout row :=
    [Index.encode (layout.isLarge .document) row.document,
      Index.encode layout.wideBlobs row.sequencePoints]
  encode_eq _ _ := by
    simp [WritableRow.encode, encodeColumns]

/-- A scope in the code of a method. Its variables and constants are runs of rows that start at the
given ones. -/
structure LocalScopeRow where
  rid : UInt32
  method : UInt32
  importScope : UInt32
  variableList : UInt32
  constantList : UInt32
  startOffset : UInt32
  length : UInt32
  deriving DecidableEq, Repr

instance : Row LocalScopeRow where
  table := .localScope
  rid row := row.rid
  size layout := layout.rowIndexBytes .methodDef + layout.rowIndexBytes .importScope +
      layout.rowIndexBytes .localVariable + layout.rowIndexBytes .localConstant + 4 + 4
  read layout rid := do
    return {
      rid
      method := ← Index.read (layout.isLarge .methodDef)
      importScope := ← Index.read (layout.isLarge .importScope)
      variableList := ← Index.read (layout.isLarge .localVariable)
      constantList := ← Index.read (layout.isLarge .localConstant)
      startOffset := ← Reader.le32
      length := ← Reader.le32 }

instance : WritableRow LocalScopeRow where
  encode layout row := do
    return (← Index.encode (layout.isLarge .methodDef) row.method) ++
      (← Index.encode (layout.isLarge .importScope) row.importScope) ++
      (← Index.encode (layout.isLarge .localVariable) row.variableList) ++
      (← Index.encode (layout.isLarge .localConstant) row.constantList) ++
      Bytes.le32 row.startOffset ++ Bytes.le32 row.length

instance : InPlaceRow LocalScopeRow where
  columns layout row :=
    [Index.encode (layout.isLarge .methodDef) row.method,
      Index.encode (layout.isLarge .importScope) row.importScope,
      Index.encode (layout.isLarge .localVariable) row.variableList,
      Index.encode (layout.isLarge .localConstant) row.constantList,
      pure (Bytes.le32 row.startOffset), pure (Bytes.le32 row.length)]
  encode_eq _ _ := by
    simp [WritableRow.encode, encodeColumns, Array.append_assoc]

/-- A local variable, with its slot. -/
structure LocalVariableRow where
  rid : UInt32
  attributes : UInt16
  index : UInt16
  name : UInt32
  deriving DecidableEq, Repr

instance : Row LocalVariableRow where
  table := .localVariable
  rid row := row.rid
  size layout := 2 + 2 + layout.stringIndexBytes
  read layout rid := do
    return {
      rid
      attributes := ← Reader.le16
      index := ← Reader.le16
      name := ← Index.read layout.wideStrings }

instance : WritableRow LocalVariableRow where
  encode layout row := do
    return Bytes.le16 row.attributes ++ Bytes.le16 row.index ++
      (← Index.encode layout.wideStrings row.name)

instance : InPlaceRow LocalVariableRow where
  columns layout row :=
    [pure (Bytes.le16 row.attributes), pure (Bytes.le16 row.index),
      Index.encode layout.wideStrings row.name]
  encode_eq _ _ := by
    simp [WritableRow.encode, encodeColumns, Array.append_assoc]

/-- A local constant. -/
structure LocalConstantRow where
  rid : UInt32
  name : UInt32
  signature : UInt32
  deriving DecidableEq, Repr

instance : Row LocalConstantRow where
  table := .localConstant
  rid row := row.rid
  size layout := layout.stringIndexBytes + layout.blobIndexBytes
  read layout rid := do
    return {
      rid
      name := ← Index.read layout.wideStrings
      signature := ← Index.read layout.wideBlobs }

instance : WritableRow LocalConstantRow where
  encode layout row := do
    return (← Index.encode layout.wideStrings row.name) ++
      (← Index.encode layout.wideBlobs row.signature)

instance : InPlaceRow LocalConstantRow where
  columns layout row :=
    [Index.encode layout.wideStrings row.name, Index.encode layout.wideBlobs row.signature]
  encode_eq _ _ := by
    simp [WritableRow.encode, encodeColumns]

/-- The imports of a scope, which come on top of those of its parent. -/
structure ImportScopeRow where
  rid : UInt32
  parent : UInt32
  imports : UInt32
  deriving DecidableEq, Repr

instance : Row ImportScopeRow where
  table := .importScope
  rid row := row.rid
  size layout := layout.rowIndexBytes .importScope + layout.blobIndexBytes
  read layout rid := do
    return {
      rid
      parent := ← Index.read (layout.isLarge .importScope)
      imports := ← Index.read layout.wideBlobs }

instance : WritableRow ImportScopeRow where
  encode layout row := do
    return (← Index.encode (layout.isLarge .importScope) row.parent) ++
      (← Index.encode layout.wideBlobs row.imports)

instance : InPlaceRow ImportScopeRow where
  columns layout row :=
    [Index.encode (layout.isLarge .importScope) row.parent,
      Index.encode layout.wideBlobs row.imports]
  encode_eq _ _ := by
    simp [WritableRow.encode, encodeColumns]

/-- A method that runs a state machine, with the method that starts it. -/
structure StateMachineRow where
  rid : UInt32
  moveNextMethod : UInt32
  kickoffMethod : UInt32
  deriving DecidableEq, Repr

instance : Row StateMachineRow where
  table := .stateMachineMethod
  rid row := row.rid
  size layout := layout.rowIndexBytes .methodDef + layout.rowIndexBytes .methodDef
  read layout rid := do
    return {
      rid
      moveNextMethod := ← Index.read (layout.isLarge .methodDef)
      kickoffMethod := ← Index.read (layout.isLarge .methodDef) }

instance : WritableRow StateMachineRow where
  encode layout row := do
    return (← Index.encode (layout.isLarge .methodDef) row.moveNextMethod) ++
      (← Index.encode (layout.isLarge .methodDef) row.kickoffMethod)

instance : InPlaceRow StateMachineRow where
  columns layout row :=
    [Index.encode (layout.isLarge .methodDef) row.moveNextMethod,
      Index.encode (layout.isLarge .methodDef) row.kickoffMethod]
  encode_eq _ _ := by
    simp [WritableRow.encode, encodeColumns]

/-- A record about a row of some table, of the kind that an identifier tells. -/
structure CustomInfoRow where
  rid : UInt32
  parent : CodedIndex
  kind : UInt32
  value : UInt32
  deriving DecidableEq, Repr

instance : Row CustomInfoRow where
  table := .customDebugInformation
  rid row := row.rid
  size layout := layout.codedIndexBytes .hasCustomDebugInformation + layout.guidIndexBytes +
      layout.blobIndexBytes
  read layout rid := do
    return {
      rid
      parent := ← CodedIndex.read layout .hasCustomDebugInformation
      kind := ← Index.read layout.wideGuids
      value := ← Index.read layout.wideBlobs }

instance : WritableRow CustomInfoRow where
  encode layout row := do
    return (← row.parent.encodeColumn layout .hasCustomDebugInformation) ++
      (← Index.encode layout.wideGuids row.kind) ++ (← Index.encode layout.wideBlobs row.value)

instance : InPlaceRow CustomInfoRow where
  columns layout row :=
    [row.parent.encodeColumn layout .hasCustomDebugInformation,
      Index.encode layout.wideGuids row.kind, Index.encode layout.wideBlobs row.value]
  encode_eq _ _ := by
    simp [WritableRow.encode, encodeColumns, Array.append_assoc]

end PortablePdb
