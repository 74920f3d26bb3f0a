import PortablePdb.Document.Name
import PortablePdb.Imports.Blob
import PortablePdb.Proofs.Heaps

namespace PortablePdb

open Reader BlobHeap

/-- The bytes of a text are read as this text. -/
theorem Text.Utf8.lossy_ofText (text : String) : lossy (Bytes.ofText text) = text := by
  simp only [lossy, Bytes.toText?_ofText]

/-- Nothing is left to read at the end of the data. -/
theorem Reader.items_nil {α : Type} (item : Reader α) : (items item).TakesLast #[] [] :=
  collect_nil _ _

/-- An item with a form of its own is followed by the other items. -/
theorem Reader.Takes.items_cons {α : Type} {item : Reader α} {form rest : Bytes} {value : α}
    {values : List α} (hitem : item.Takes form value) (hpos : 0 < form.size)
    (hrest : (items item).TakesLast rest values) :
    (items item).TakesLast (form ++ rest) (value :: values) := by
  have hstep : (do return (some (← item), ()) : Reader (Option α × Unit)).Takes form
      (some value, ()) :=
    hitem.bind_pure
  exact hstep.collect_cons hpos hrest

/-- A form refers to names if it has, for each of them after some lead, the position at which the
name stands in a heap. -/
def RefersTo (lead data : Bytes) : (names : List String) → (form : Bytes) → Prop
  | [], form => form = #[]
  | name :: names, form => ∃ index first rest, HasBlob data index (Bytes.ofText name) ∧
      Compressed.encodeUInt index.toNat = .ok first ∧ RefersTo lead data names rest ∧
      form = lead ++ first ++ rest

theorem RefersTo.grow {lead data : Bytes} {names : List String} {form : Bytes}
    (hform : RefersTo lead data names form) (more : Bytes) :
    RefersTo lead (data ++ more) names form := by
  induction names generalizing form with
  | nil => exact hform
  | cons name names ih =>
    obtain ⟨index, first, rest, hblob, hfirst, hrest, rfl⟩ := hform
    exact ⟨index, first, rest, hblob.grow more, hfirst, ih hrest, rfl⟩

/-- An empty form refers to no names. -/
theorem RefersTo.eq_nil {byte : UInt8} {data : Bytes} {names : List String}
    (hform : RefersTo #[byte] data names #[]) : names = [] := by
  cases names with
  | nil => rfl
  | cons name names =>
    obtain ⟨_, _, _, _, _, _, hform⟩ := hform
    simp at hform

namespace DocumentName

theorem run_encodeParts {parts : List (List Char)} {forms : List UInt8} {builder next : Builder}
    (hrun : (encodeParts parts).run builder = .ok forms next) (hsound : builder.IsSound) :
    next.IsSound ∧ (∃ more, next.data = builder.data ++ more) ∧
      RefersTo #[] next.data (parts.map String.ofList) forms.toArray := by
  induction parts generalizing forms builder with
  | nil =>
    obtain ⟨rfl, rfl⟩ := run_pure_eq_ok_iff.mp hrun
    exact ⟨hsound, ⟨#[], by simp⟩, rfl⟩
  | cons part parts ih =>
    obtain ⟨index, middle, hadd, hrun⟩ := run_bind_eq_ok_iff.mp hrun
    obtain ⟨hmiddle, ⟨more, hmore⟩, hblob⟩ := Builder.run_add hadd hsound
    split at hrun
    · next first hfirst =>
      obtain ⟨rest, _, hrest, hrun⟩ := run_bind_eq_ok_iff.mp hrun
      obtain ⟨rfl, rfl⟩ := run_pure_eq_ok_iff.mp hrun
      obtain ⟨hnext, ⟨later, hlater⟩, hrefers⟩ := ih hrest hmiddle
      refine ⟨hnext, ⟨more ++ later, by rw [hlater, hmore, Array.append_assoc]⟩, ?_⟩
      exact ⟨index, first, rest.toArray, hlater ▸ hblob.grow later, hfirst, hrefers, by simp⟩
    · exact absurd hrun run_throw_ne_ok

/-- The parts of a path are read back from the positions of their names. -/
theorem takes_parts {data form : Bytes} {names : List String}
    (hform : RefersTo #[] data names form) :
    (items (readPart ⟨data⟩)).TakesLast form (names.map (·.toList)) := by
  induction names generalizing form with
  | nil =>
    obtain rfl : form = #[] := hform
    exact items_nil _
  | cons name names ih =>
    obtain ⟨index, first, rest, hblob, hfirst, hrest, rfl⟩ := hform
    have hpart : (readPart ⟨data⟩).Takes first name.toList := by
      have hread : (readPart ⟨data⟩).Takes (first ++ #[])
          (Text.Utf8.lossy (Bytes.ofText name)).toList :=
        (Compressed.takes_encodeUInt hfirst).bind (takes_lift hblob.blobAt_eq).bind_pure
      rwa [Array.append_empty, Text.Utf8.lossy_ofText] at hread
    rw [Array.empty_append]
    exact hpart.items_cons (Compressed.size_encodeUInt_pos hfirst) (ih hrest)

/-- A blob holds a path in a heap if it has the separator and refers to the parts of the path. -/
def HasPath (data blob : Bytes) (path : String) : Prop :=
  ∃ form, blob = #[separator.toNat.toUInt8] ++ form ∧
    RefersTo #[] data ((Text.split separator path.toList).map String.ofList) form

theorem HasPath.grow {data blob : Bytes} {path : String} (hpath : HasPath data blob path)
    (more : Bytes) : HasPath (data ++ more) blob path := by
  obtain ⟨form, hblob, hform⟩ := hpath
  exact ⟨form, hblob, hform.grow more⟩

theorem run_encode {path : String} {blob : Bytes} {builder next : Builder}
    (hrun : (encode path).run builder = .ok blob next) (hsound : builder.IsSound) :
    next.IsSound ∧ (∃ more, next.data = builder.data ++ more) ∧ HasPath next.data blob path := by
  obtain ⟨forms, _, hparts, hrun⟩ := run_bind_eq_ok_iff.mp hrun
  obtain ⟨rfl, rfl⟩ := run_pure_eq_ok_iff.mp hrun
  obtain ⟨hnext, hmore, hrefers⟩ := run_encodeParts hparts hsound
  exact ⟨hnext, hmore, forms.toArray, by simp, hrefers⟩

/-- A blob that holds a path is read as this path. -/
theorem HasPath.decode_eq {data blob : Bytes} {path : String} (hpath : HasPath data blob path) :
    decode ⟨data⟩ blob = .ok path := by
  obtain ⟨form, rfl, hform⟩ := hpath
  have hparts := takes_parts hform
  have hnames : ((Text.split separator path.toList).map String.ofList).map (·.toList) =
      Text.split separator path.toList := by
    simp [Function.comp_def]
  rw [hnames] at hparts
  have hseparator : separator.toNat.toUInt8 ≠ 0 := by decide
  have hchar : Char.ofNat (separator.toNat.toUInt8).toNat = separator := by decide
  have hread : (read ⟨data⟩).TakesLast (#[separator.toNat.toUInt8] ++ form)
      (String.ofList (Text.join separator (Text.split separator path.toList))) := by
    refine (takes_u8 separator.toNat.toUInt8).bind_last ?_
    simp only [if_neg hseparator, hchar]
    exact hparts.bind_pure
  rw [Text.join_split, String.ofList_toList] at hread
  exact hread.eval_eq

end DocumentName

namespace Imports

theorem run_encode {names : List String} {blob : Bytes} {builder next : Builder}
    (hrun : (encode names).run builder = .ok blob next) (hsound : builder.IsSound) :
    next.IsSound ∧ (∃ more, next.data = builder.data ++ more) ∧
      RefersTo #[1] next.data names blob := by
  induction names generalizing blob builder with
  | nil =>
    obtain ⟨rfl, rfl⟩ := run_pure_eq_ok_iff.mp hrun
    exact ⟨hsound, ⟨#[], by simp⟩, rfl⟩
  | cons name names ih =>
    obtain ⟨index, middle, hadd, hrun⟩ := run_bind_eq_ok_iff.mp hrun
    obtain ⟨hmiddle, ⟨more, hmore⟩, hblob⟩ := Builder.run_add hadd hsound
    split at hrun
    · next first hfirst =>
      obtain ⟨rest, _, hrest, hrun⟩ := run_bind_eq_ok_iff.mp hrun
      obtain ⟨rfl, rfl⟩ := run_pure_eq_ok_iff.mp hrun
      obtain ⟨hnext, ⟨later, hlater⟩, hrefers⟩ := ih hrest hmiddle
      refine ⟨hnext, ⟨more ++ later, by rw [hlater, hmore, Array.append_assoc]⟩, ?_⟩
      exact ⟨index, first, rest, hlater ▸ hblob.grow later, hfirst, hrefers, rfl⟩
    · exact absurd hrun run_throw_ne_ok

/-- Imports of namespaces are read back from the positions of their names. -/
theorem takes_imports {data form : Bytes} {names : List String}
    (hform : RefersTo #[1] data names form) :
    (items (readImport ⟨data⟩)).TakesLast form (names.map .importNamespace) := by
  induction names generalizing form with
  | nil =>
    obtain rfl : form = #[] := hform
    exact items_nil _
  | cons name names ih =>
    obtain ⟨index, first, rest, hblob, hfirst, hrest, rfl⟩ := hform
    have hname : (readName ⟨data⟩).Takes first name := by
      have hread : (readName ⟨data⟩).Takes (first ++ #[])
          (Text.Utf8.lossy (Bytes.ofText name)) :=
        (Compressed.takes_encodeUInt hfirst).bind (takes_lift hblob.blobAt_eq).bind_pure
      rwa [Array.append_empty, Text.Utf8.lossy_ofText] at hread
    have hkind : Compressed.readUInt.Takes #[1] 1 := Compressed.takes_encodeUInt rfl
    have himport : (readImport ⟨data⟩).Takes (#[1] ++ first) (.importNamespace name) :=
      hkind.bind hname.bind_pure
    refine himport.items_cons ?_ (ih hrest)
    simp only [Array.size_append, List.size_toArray, List.length_singleton]
    omega

theorem decode_eq {data blob : Bytes} {names : List String}
    (hblob : RefersTo #[1] data names blob) :
    decode ⟨data⟩ blob = .ok (names.map .importNamespace) :=
  (takes_imports hblob).eval_eq

end Imports

end PortablePdb
