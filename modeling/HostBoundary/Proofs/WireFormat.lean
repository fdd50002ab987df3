import HostBoundary.Proofs.Receivers

namespace HostBoundary

variable {type : ValueType} {α : Type} {bytes : List UInt8} {units : Units} {kind : ObjectKind}
  {w : UInt64}

lemma toList_loop_eq (bytes : ByteArray) (i : Nat) (read : List UInt8) :
    ByteArray.toList.loop bytes i read = read.reverse ++ bytes.data.toList.drop i := by
  have hsize : bytes.data.toList.length = bytes.size := rfl
  fun_induction ByteArray.toList.loop bytes i read with
  | case1 i read hi ih =>
    have hget : bytes.get! i = bytes.data.toList[i] := getElem!_pos bytes.data i hi
    have hdrop := List.drop_eq_getElem_cons (l := bytes.data.toList) (i := i) (hsize ▸ hi)
    rw [ih, hdrop, hget, List.reverse_cons, List.append_assoc]
    rfl
  | case2 i read hi =>
    rw [List.drop_eq_nil_of_le (by omega), List.append_nil]

lemma toList_eq_data_toList (bytes : ByteArray) : bytes.toList = bytes.data.toList :=
  toList_loop_eq bytes 0 []

namespace ValueType

lemma ofCode?_code (type : ValueType) : ofCode? type.code = some type := by
  cases type with
  | object kind => cases kind <;> rfl
  | _ => rfl

lemma code_of_ofCode? {code : Int32} (h : ofCode? code = some type) : type.code = code := by
  simpa using List.find?_some h

lemma code_bounds (type : ValueType) : 0 ≤ type.code ∧ type.code ≤ 14 := by
  cases type with
  | object kind => cases kind <;> decide
  | _ => decide

lemma ofCode?_eq_none_iff (code : Int32) : ofCode? code = none ↔ code < 0 ∨ 14 < code := by
  constructor
  · intro hnone
    by_contra hin
    rw [not_or, Int32.lt_iff_toInt_lt, Int32.lt_iff_toInt_lt] at hin
    obtain ⟨hlow, hhigh⟩ := hin
    have hlow' : 0 ≤ code.toInt := not_lt.mp hlow
    have hhigh' : code.toInt ≤ 14 := not_lt.mp hhigh
    have hcode : code = Int32.ofInt code.toInt := (Int32.ofInt_toInt code).symm
    generalize code.toInt = k at hlow' hhigh' hcode
    subst hcode
    interval_cases k <;> exact absurd hnone (by decide)
  · intro hout
    by_contra hsome
    obtain ⟨type, htype⟩ := Option.ne_none_iff_exists'.mp hsome
    obtain ⟨hlow, hhigh⟩ := type.code_bounds
    rw [code_of_ofCode? htype, Int32.le_iff_toInt_le] at hlow hhigh
    rw [Int32.lt_iff_toInt_lt, Int32.lt_iff_toInt_lt] at hout
    omega

lemma isObject_iff (type : ValueType) : type.isObject = true ↔ 7 ≤ type.code := by
  cases type with
  | object kind => cases kind <;> decide
  | _ => decide

end ValueType

namespace WireValue

-- What a value addresses in memory: as many elements as its length says, and none through a null
-- address.
def Shows {α : Type} (v : WireValue) (memory text : List α) : Prop :=
  if v.payload = .word 0 then text = [] else text <+: memory ∧ text.length = v.length

def Addresses (v : WireValue) (bytes : List UInt8) : Prop := v.Shows v.payload.toOctets bytes

def AddressesUnits (v : WireValue) (units : Units) : Prop := v.Shows v.payload.toUnits units

-- A value that can be read: what it addresses is there if it is a text, and its payload is a word
-- if it is not.
def Readable (v : WireValue) : Prop :=
  match ValueType.ofCode? v.type with
  | none => True
  | some .utf8 => ∃ bytes, v.Addresses bytes
  | some .utf16 => ∃ units, v.AddressesUnits units
  | some _ => ∃ w, v.payload = .word w

def owned? (v : WireValue) : Option Payload :=
  if v.ownsBuffer then
    match ValueType.ofCode? v.type with
    | some .utf8 | some .utf16 => some v.payload
    | _ => none
  else none

section Reading

variable {v : WireValue}

lemma Shows.take_eq {memory text : List α} (h : v.Shows memory text)
    (hnull : v.payload = .word 0 → memory = []) : memory.take v.length = text := by
  unfold Shows at h
  split at h
  · rename_i hpayload
    rw [hnull hpayload, h, List.take_nil]
  · rw [← h.2]
    exact (List.prefix_iff_eq_take.mp h.1).symm

lemma Addresses.take_eq (h : v.Addresses bytes) : v.payload.toOctets.take v.length = bytes :=
  Shows.take_eq h fun hnull => hnull ▸ rfl

lemma AddressesUnits.take_eq (h : v.AddressesUnits units) :
    v.payload.toUnits.take v.length = units :=
  Shows.take_eq h fun hnull => hnull ▸ rfl

lemma shows_nil (memory : List α) (hempty : v.payload = .word 0 ∨ v.length = 0) :
    v.Shows memory [] := by
  unfold Shows
  split
  · rfl
  · rename_i hnull
    refine ⟨?_, (hempty.resolve_left hnull).symm⟩
    exact List.nil_prefix

lemma fromUTF8?_eq_some_iff (bytes : List UInt8) (text : String) :
    String.fromUTF8? ⟨bytes.toArray⟩ = some text ↔ text.toUTF8.toList = bytes := by
  rw [toList_eq_data_toList]
  unfold String.fromUTF8?
  split
  · rw [Option.some_inj]
    constructor
    · rintro rfl
      rfl
    · rintro rfl
      rfl
  · rename_i hnot
    simp only [reduceCtorEq, false_iff]
    rintro rfl
    exact hnot text.isValidUTF8

lemma toTagged_of_unknown (h : ValueType.ofCode? v.type = none) :
    v.toTagged = .error (.unknownValueType v.type) := by
  simp only [toTagged, h]

lemma toTagged_of_utf8 (h : ValueType.ofCode? v.type = some .utf8) (hbytes : v.Addresses bytes) :
    v.toTagged = match String.fromUTF8? ⟨bytes.toArray⟩ with
      | some text => .ok (.utf8 text)
      | none => .error .invalidUtf8 := by
  cases htext : String.fromUTF8? ⟨bytes.toArray⟩ <;>
    simp only [toTagged, h, hbytes.take_eq, htext]

lemma toTagged_of_utf16 (h : ValueType.ofCode? v.type = some .utf16)
    (hunits : v.AddressesUnits units) : v.toTagged = .ok (.utf16 units) := by
  simp only [toTagged, h, hunits.take_eq]

lemma toTagged_of_object (h : ValueType.ofCode? v.type = some (.object kind))
    (hw : v.payload = .word w) :
    v.toTagged = match Handle.ofRaw? w with
      | some handle => .ok (.object kind handle)
      | none => .error .emptyHandle := by
  cases hhandle : Handle.ofRaw? w <;> simp only [toTagged, h, hw, Payload.toWord, hhandle]

lemma handle_error_iff (h : ValueType.ofCode? v.type = some (.object kind))
    (hw : v.payload = .word w) (error : ConversionError) :
    v.toTagged = .error error ↔ error = .emptyHandle ∧ w >>> 33 = 0 := by
  have hgeneration : w >>> 33 = 0 ↔ w.toNat < 2 ^ 33 := by
    rw [← UInt64.toNat_inj, UInt64.toNat_shiftRight, Nat.shiftRight_eq_div_pow]
    change w.toNat / 2 ^ 33 = 0 ↔ _
    omega
  rw [toTagged_of_object h hw, hgeneration, ← Handle.ofRaw?_eq_none]
  cases Handle.ofRaw? w <;> simp [eq_comm]

lemma utf8_error_iff (h : ValueType.ofCode? v.type = some .utf8) (hbytes : v.Addresses bytes)
    (error : ConversionError) :
    v.toTagged = .error error ↔
      error = .invalidUtf8 ∧ ∀ text : String, text.toUTF8.toList ≠ bytes := by
  simp only [toTagged_of_utf8 h hbytes, ne_eq, ← fromUTF8?_eq_some_iff]
  cases String.fromUTF8? ⟨bytes.toArray⟩ <;> simp [eq_comm]

lemma utf8_ok (h : ValueType.ofCode? v.type = some .utf8) (text : String)
    (htext : v.Addresses text.toUTF8.toList) : v.toTagged = .ok (.utf8 text) := by
  rw [toTagged_of_utf8 h htext, (fromUTF8?_eq_some_iff _ text).mpr rfl]

lemma scalar_ok (h : ValueType.ofCode? v.type = some type) (hobject : type.isObject = false)
    (hutf8 : type ≠ .utf8) : ∃ t, v.toTagged = .ok t := by
  unfold toTagged
  rw [h]
  cases type with
  | utf8 => exact absurd rfl hutf8
  | object kind => exact absurd hobject (by simp [ValueType.isObject])
  | _ => exact ⟨_, rfl⟩

end Reading

section Writing

variable (v : Tagged)

lemma addresses_utf8 (text : String) : (ofTagged (.utf8 text)).Addresses text.toUTF8.toList := by
  unfold Addresses Shows
  rw [if_neg (by simp [ofTagged])]
  exact ⟨List.prefix_append _ _, rfl⟩

lemma addressesUnits_utf16 (units : Units) : (ofTagged (.utf16 units)).AddressesUnits units := by
  unfold AddressesUnits Shows
  rw [if_neg (by simp [ofTagged])]
  exact ⟨List.prefix_append _ _, rfl⟩

lemma type_ofTagged : (ofTagged v).type = v.type.code := by
  cases v <;> rfl

lemma ofCode?_ofTagged : ValueType.ofCode? (ofTagged v).type = some v.type := by
  rw [type_ofTagged, ValueType.ofCode?_code]

lemma toTagged_ofTagged : (ofTagged v).toTagged = .ok v := by
  cases v with
  | null => rfl
  | boolean b => cases b <;> rfl
  | int i =>
    change Except.ok (Tagged.int i.toUInt32.toUInt64.toUInt32.toInt32) = _
    rw [UInt32.toUInt32_toUInt64, Int32.toInt32_toUInt32]
  | uint u =>
    change Except.ok (Tagged.uint u.toUInt64.toUInt32) = _
    rw [UInt32.toUInt32_toUInt64]
  | float x => rfl
  | utf8 text => exact utf8_ok (ofCode?_ofTagged _) text (addresses_utf8 text)
  | utf16 units => exact toTagged_of_utf16 (ofCode?_ofTagged _) (addressesUnits_utf16 units)
  | object kind handle =>
    rw [toTagged_of_object (ofCode?_ofTagged _) rfl, Handle.ofRaw?_raw]

lemma readable_ofTagged : (ofTagged v).Readable := by
  unfold Readable
  rw [ofCode?_ofTagged]
  cases v with
  | utf8 text => exact ⟨_, addresses_utf8 text⟩
  | utf16 units => exact ⟨_, addressesUnits_utf16 units⟩
  | _ => exact ⟨_, rfl⟩

lemma length_ofTagged_utf8 (text : String) :
    (ofTagged (.utf8 text)).length = text.utf8ByteSize := by
  change text.toUTF8.toList.length = _
  rw [toList_eq_data_toList]
  rfl

end Writing

-- Why a value that can be read is refused.
lemma toTagged_eq_error_iff {v : WireValue} (hv : v.Readable) (error : ConversionError) :
    v.toTagged = .error error ↔
      error = .unknownValueType v.type ∧ (v.type < 0 ∨ 14 < v.type) ∨
      error = .emptyHandle ∧ 7 ≤ v.type ∧ v.type ≤ 14 ∧
        (∃ w, v.payload = .word w ∧ w >>> 33 = 0) ∨
      error = .invalidUtf8 ∧ v.type = ValueType.utf8.code ∧
        ∃ bytes, v.Addresses bytes ∧ ∀ text : String, text.toUTF8.toList ≠ bytes := by
  unfold Readable at hv
  cases htype : ValueType.ofCode? v.type with
  | none =>
    have hout := (ValueType.ofCode?_eq_none_iff v.type).mp htype
    rw [toTagged_of_unknown htype]
    constructor
    · intro herror
      exact .inl ⟨(Except.error.inj herror).symm, hout⟩
    · rintro (⟨rfl, -⟩ | ⟨-, hlow, hhigh, -⟩ | ⟨-, hcode, -⟩)
      · rfl
      · rw [Int32.lt_iff_toInt_lt, Int32.lt_iff_toInt_lt] at hout
        rw [Int32.le_iff_toInt_le] at hlow hhigh
        have hseven : (7 : Int32).toInt = 7 := rfl
        have hzero : (0 : Int32).toInt = 0 := rfl
        omega
      · rw [hcode] at htype
        exact absurd htype (by simp [ValueType.ofCode?_code])
  | some type =>
    rw [htype] at hv
    have hknown : ¬ (v.type < 0 ∨ 14 < v.type) := by
      rw [← ValueType.ofCode?_eq_none_iff, htype]
      simp
    have hcode := ValueType.code_of_ofCode? htype
    have hobject : 7 ≤ v.type ↔ type.isObject = true := by rw [type.isObject_iff, hcode]
    have htext : v.type = ValueType.utf8.code ↔ type = .utf8 := by
      rw [← hcode]
      exact ⟨fun heq => Option.some.inj (by rw [← type.ofCode?_code, heq]; rfl), fun heq => heq ▸ rfl⟩
    simp only [hknown, hobject, htext, and_false, false_or]
    cases type with
    | utf8 =>
      obtain ⟨bytes, hbytes⟩ := hv
      rw [utf8_error_iff htype hbytes]
      have honly : ∀ other, v.Addresses other → other = bytes := fun _ hother =>
        hother.take_eq.symm.trans hbytes.take_eq
      constructor
      · rintro ⟨rfl, hnone⟩
        exact .inr ⟨rfl, rfl, bytes, hbytes, hnone⟩
      · rintro (⟨-, hno, -⟩ | ⟨rfl, -, other, hother, hnone⟩)
        · exact absurd hno (by simp [ValueType.isObject])
        · exact ⟨rfl, honly other hother ▸ hnone⟩
    | object kind =>
      obtain ⟨w, hw⟩ := hv
      have hhigh : v.type ≤ 14 := hcode ▸ (ValueType.code_bounds _).2
      rw [handle_error_iff htype hw]
      simp [ValueType.isObject, hhigh, hw]
    | _ =>
      obtain ⟨t, ht⟩ := scalar_ok htype rfl (by simp)
      simp [ht, ValueType.isObject]

end WireValue

-- Every tagged value is read back from its wire form, and a wire value is refused only for its type
-- code, for a handle without a generation or for bytes that are no UTF-8.
theorem wire_values_round_trip :
    (∀ v : Tagged, (WireValue.ofTagged v).toTagged = .ok v ∧ (WireValue.ofTagged v).Readable ∧
      ((WireValue.ofTagged v).ownsBuffer = true ↔
        (∃ text, v = .utf8 text) ∨ ∃ units, v = .utf16 units) ∧
      (∀ text, v = .utf8 text → (WireValue.ofTagged v).length = text.utf8ByteSize) ∧
      ∀ units, v = .utf16 units → (WireValue.ofTagged v).length = units.length) ∧
    (∀ v : WireValue, v.Readable → ∀ error, v.toTagged = .error error ↔
      error = .unknownValueType v.type ∧ (v.type < 0 ∨ 14 < v.type) ∨
      error = .emptyHandle ∧ 7 ≤ v.type ∧ v.type ≤ 14 ∧
        (∃ w, v.payload = .word w ∧ w >>> 33 = 0) ∨
      error = .invalidUtf8 ∧ v.type = ValueType.utf8.code ∧
        ∃ bytes, v.Addresses bytes ∧ ∀ text : String, text.toUTF8.toList ≠ bytes) ∧
    (∀ v : WireValue, v.type = ValueType.utf8.code →
      (∀ text : String, v.Addresses text.toUTF8.toList → v.toTagged = .ok (.utf8 text)) ∧
      (v.payload = .word 0 ∨ v.length = 0 → v.toTagged = .ok (.utf8 ""))) ∧
    (∀ v : WireValue, v.type = ValueType.utf16.code →
      (∀ units, v.AddressesUnits units → v.toTagged = .ok (.utf16 units)) ∧
      (v.payload = .word 0 ∨ v.length = 0 → v.toTagged = .ok (.utf16 []))) ∧
    ∀ v : WireValue, v.release = .null ∧ v.release.release = v.release ∧
      v.release.owned? = none := by
  refine ⟨fun v => ⟨WireValue.toTagged_ofTagged v, WireValue.readable_ofTagged v, ?_, ?_, ?_⟩,
    fun v hv => WireValue.toTagged_eq_error_iff hv, fun v hcode => ?_, fun v hcode => ?_,
    fun v => ⟨rfl, rfl, rfl⟩⟩
  · cases v <;> simp [WireValue.ofTagged] <;> rfl
  · rintro text rfl
    exact WireValue.length_ofTagged_utf8 text
  · rintro units rfl
    rfl
  · have htype : ValueType.ofCode? v.type = some .utf8 := hcode ▸ ValueType.ofCode?_code .utf8
    refine ⟨WireValue.utf8_ok htype, fun hempty => WireValue.utf8_ok htype "" ?_⟩
    rw [toList_eq_data_toList]
    exact WireValue.shows_nil _ hempty
  · have htype : ValueType.ofCode? v.type = some .utf16 := hcode ▸ ValueType.ofCode?_code .utf16
    exact ⟨fun units => WireValue.toTagged_of_utf16 htype,
      fun hempty => WireValue.toTagged_of_utf16 htype (WireValue.shows_nil _ hempty)⟩

-- An object whose word is the bare ownership bit, and a text at a null address.
theorem wire_values_round_trip_of_empty_handle :
    (⟨7, false, 0, .word 1⟩ : WireValue).Readable ∧
    (⟨7, false, 0, .word 1⟩ : WireValue).toTagged = .error .emptyHandle ∧
    (⟨5, false, 3, .word 0⟩ : WireValue).toTagged = .ok (.utf8 "") ∧
    (WireValue.ofTagged (.utf16 [0xD800, 0])).toTagged = .ok (.utf16 [0xD800, 0]) := by
  obtain ⟨hback, herror, hutf8, -⟩ := wire_values_round_trip
  have hreadable : (⟨7, false, 0, .word 1⟩ : WireValue).Readable := ⟨1, rfl⟩
  refine ⟨hreadable, (herror _ hreadable _).mpr (.inr (.inl ⟨rfl, ?_, ?_, 1, rfl, ?_⟩)),
    (hutf8 ⟨5, false, 3, .word 0⟩ rfl).2 (.inl rfl), (hback (.utf16 [0xD800, 0])).1⟩
  all_goals decide

end HostBoundary
