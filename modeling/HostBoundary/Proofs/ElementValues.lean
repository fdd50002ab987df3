import HostBoundary.Proofs.ElementWrites

namespace HostBoundary

variable {kind : ElementKind} {v low : Int}

-- The least integer of a kind whose elements wrap. Its integers are as many as its bytes can hold.
def ElementKind.lowest? : ElementKind → Option Int
  | .int8 => some (-2 ^ 7)
  | .int16 => some (-2 ^ 15)
  | .int32 => some (-2 ^ 31)
  | .uint8 | .uint16 | .uint32 => some 0
  | _ => none

lemma ElementKind.bounds_of_lowest? (hk : kind.lowest? = some low) :
    (low = 0 ∨ 2 * low = -Int.pow 256 kind.size) ∧
      -2 ^ 31 ≤ low ∧ 0 < Int.pow 256 kind.size ∧ low + Int.pow 256 kind.size ≤ 2 ^ 32 := by
  cases kind <;> cases hk <;> decide

namespace Element

lemma ofLittleEndian_littleEndian (size n : Nat) :
    ofLittleEndian (littleEndian size n) = n % Nat.pow 256 size := by
  induction size generalizing n with
  | zero => simp [littleEndian, ofLittleEndian, Nat.mod_one]
  | succ size ih =>
    have hsplit : Nat.pow 256 (size + 1) = 256 * Nat.pow 256 size := Nat.pow_succ'
    rw [littleEndian, ofLittleEndian, ih, UInt8.toNat_ofNat', hsplit, Nat.mod_mul]

lemma natCast_pow (size : Nat) : (Nat.pow 256 size : Int) = Int.pow 256 size :=
  Int.natCast_pow 256 size

section Narrow

variable (size : Nat) (n : Int)

-- What so many bytes keep of an integer is congruent to it, without a sign or with one.
lemma unsigned_narrow : (ofLittleEndian (narrow size n) : Int) < Int.pow 256 size ∧
    Int.pow 256 size ∣ ofLittleEndian (narrow size n) - n := by
  have hpos : (0 : Int) < Int.pow 256 size := Int.pow_pos (by decide)
  have hbytes : (ofLittleEndian (narrow size n) : Int) = n % Int.pow 256 size := by
    rw [narrow, ofLittleEndian_littleEndian, Int.natCast_emod,
      Int.toNat_of_nonneg (Int.emod_nonneg n (Int.ne_of_gt hpos)), natCast_pow,
      Int.emod_emod_of_dvd _ (Int.dvd_refl _)]
  rw [hbytes, ← Int.dvd_neg, Int.neg_sub]
  exact ⟨Int.emod_lt_of_pos n hpos, Int.dvd_self_sub_emod⟩

lemma signed_narrow : -Int.pow 256 size ≤ 2 * signed size (ofLittleEndian (narrow size n)) ∧
    2 * signed size (ofLittleEndian (narrow size n)) < Int.pow 256 size ∧
    Int.pow 256 size ∣ signed size (ofLittleEndian (narrow size n)) - n := by
  obtain ⟨hhigh, hdvd⟩ := unsigned_narrow size n
  have hpow := natCast_pow size
  generalize ofLittleEndian (narrow size n) = m at hhigh hdvd
  unfold signed
  split
  · exact ⟨by omega, by omega, hdvd⟩
  · refine ⟨by omega, by omega, ?_⟩
    rw [sub_right_comm]
    exact dvd_sub hdvd ⟨1, by omega⟩

end Narrow

lemma take_write (kind : ElementKind) (bytes : List UInt8) (x : Binary64) :
    (write kind bytes x).take kind.size = encode kind x :=
  List.take_left' (length_encode kind x)

lemma decode_write (hk : kind.lowest? = some low) (bytes : List UInt8) (x : Binary64) :
    ∃ v, low ≤ v ∧ v < low + Int.pow 256 kind.size ∧ Int.pow 256 kind.size ∣ v - x.trunc ∧
      decode kind (write kind bytes x) = .ofInt v := by
  have hwhole : (2 ^ 32 : Int) ∣ x.trunc.tmod (2 ^ 32) - x.trunc :=
    ⟨-x.trunc.tdiv (2 ^ 32), by have := Int.mul_tdiv_add_tmod x.trunc (2 ^ 32); omega⟩
  have hmod : Int.pow 256 kind.size ∣ x.trunc.tmod (2 ^ 32) - x.trunc := by
    refine Int.dvd_trans ?_ hwhole
    cases kind <;> cases hk <;> decide
  obtain ⟨hhalf, -⟩ := ElementKind.bounds_of_lowest? hk
  have hsigned := signed_narrow kind.size (x.trunc.tmod (2 ^ 32))
  have hunsigned := unsigned_narrow kind.size (x.trunc.tmod (2 ^ 32))
  simp only [decode, take_write]
  cases kind with
  | int8 | int16 | int32 =>
    obtain rfl := Option.some.inj hk
    obtain ⟨hlow, hhigh, hdvd⟩ := hsigned
    have hcongr := dvd_add hdvd hmod
    rw [sub_add_sub_cancel] at hcongr
    exact ⟨_, by omega, by omega, hcongr, rfl⟩
  | uint8 | uint16 | uint32 =>
    obtain rfl := Option.some.inj hk
    obtain ⟨hhigh, hdvd⟩ := hunsigned
    have hcongr := dvd_add hdvd hmod
    rw [sub_add_sub_cancel] at hcongr
    exact ⟨_, Int.natCast_nonneg _, by rwa [Int.zero_add], hcongr, rfl⟩
  | _ => cases hk

-- Of as many consecutive integers as the modulus, one is congruent to a given integer.
lemma eq_of_congruent (low modulus : Int) {t u : Int} (hu : low ≤ u) (hu' : u < low + modulus) (hv : low ≤ v)
    (hv' : v < low + modulus) (hut : modulus ∣ u - t) (hvt : modulus ∣ v - t) : u = v := by
  have hdvd := dvd_sub hut hvt
  rw [sub_sub_sub_cancel_right] at hdvd
  exact Int.sub_eq_zero.mp (Int.eq_zero_of_abs_lt_dvd hdvd (abs_lt.mpr ⟨by omega, by omega⟩))

end Element

-- The integer as a value: a word where 32 bits hold it, and a double otherwise.
inductive Value.Delivers (v : Int) : Value → Prop
  | int {i : Int32} (hi : i.toInt = v) : Delivers v (.int i)
  | number {x : Binary64} (hwide : ¬ Binary64.Word v) (hx : x.Equals v) : Delivers v (.number x)

lemma Value.delivers_ofInt (hv : v.natAbs < 2 ^ 52) : (ofInt v).Delivers v := by
  unfold ofInt
  split
  next hword => exact .int (Int32.toInt_ofInt_of_le hword.1 hword.2)
  next hwide =>
    have hfinite := (Binary64.nearest_ofInt (n := v) (by omega)).finite
    exact .number hwide ⟨hfinite, Binary64.scaled_ofInt hv, by omega⟩

-- What is written to an element of an integer kind reads as the one integer of the kind that is
-- congruent to the number without its fraction, or as zero for what is no number.
theorem integer_elements_wrap {kind : ElementKind} {low : Int} (hk : kind.lowest? = some low)
    (bytes : List UInt8) (hb : kind.size ≤ bytes.length) (x : Binary64) :
    (x.isFinite = true → ∃ v, (Element.decode kind (Element.write kind bytes x)).Delivers v ∧
      ∀ u, low ≤ u ∧ u < low + 2 ^ (8 * kind.size) ∧
        2 ^ (8 * kind.size) ∣ u - x.scaled.tdiv Binary64.one ↔ u = v) ∧
    (x.isFinite = false → Element.decode kind (Element.write kind bytes x) = .int 0) ∧
    (Element.write kind bytes x).length = bytes.length ∧
    (Element.write kind bytes x).drop kind.size = bytes.drop kind.size := by
  obtain ⟨v, hlow, hhigh, hdvd, hread⟩ := Element.decode_write hk bytes x
  have hpow : (2 : Int) ^ (8 * kind.size) = Int.pow 256 kind.size := Int.pow_mul
  have hbounds := ElementKind.bounds_of_lowest? hk
  rw [hread]
  refine ⟨fun hx => ?_, fun hx => ?_, ?_, List.drop_left' (Element.length_encode kind x)⟩
  · rw [Binary64.trunc, if_pos hx] at hdvd
    refine ⟨v, Value.delivers_ofInt ?_, fun u => ⟨?_, ?_⟩⟩
    · omega
    · rintro ⟨hu, hu', hudvd⟩
      exact Element.eq_of_congruent _ _ hu (hpow ▸ hu') hlow hhigh (hpow ▸ hudvd) hdvd
    · rintro rfl
      exact ⟨hlow, hpow ▸ hhigh, hpow ▸ hdvd⟩
  · rw [Binary64.trunc, hx, if_neg (by simp)] at hdvd
    obtain rfl : v = 0 := Element.eq_of_congruent _ _ hlow hhigh (by omega) (by omega) hdvd ⟨0, by simp⟩
    rfl
  · rw [Element.write, List.length_append, Element.length_encode, List.length_drop]
    omega

theorem integer_elements_wrap_of_wide : ∃ v,
    (Element.decode .uint32 (Element.write .uint32 [1, 2, 3, 4, 5] (.ofInt (-1)))).Delivers v ∧
    ∀ u : Int, 0 ≤ u ∧ u < 0 + 2 ^ (8 * ElementKind.uint32.size) ∧
      2 ^ (8 * ElementKind.uint32.size) ∣ u - (Binary64.ofInt (-1)).scaled.tdiv Binary64.one ↔
        u = v :=
  (integer_elements_wrap rfl [1, 2, 3, 4, 5] (by decide) (.ofInt (-1))).1 (by decide +kernel)

-- The 64-bit kinds take an integer by way of the double nearest to it, and so may lose its lowest
-- bits.
lemma Element.decode_write_bigint (hk : kind = .bigInt64 ∨ kind = .bigUint64) (bytes : List UInt8)
    (x : Binary64) : ∃ v : Int64,
      v.toInt = max (-2 ^ 63) (min x.trunc (2 ^ 63 - 1)) ∧
      decode kind (write kind bytes x) = .bigint v := by
  have htake := take_write kind bytes x
  generalize hn : max (-2 ^ 63) (min x.trunc (2 ^ 63 - 1)) = n
  obtain ⟨hlow, hhigh, hdvd⟩ := signed_narrow 8 n
  have hpow : Int.pow 256 8 = 2 ^ 64 := by decide
  have hsame : signed 8 (ofLittleEndian (narrow 8 n)) = n := eq_of_congruent (-2 ^ 63)
    (2 ^ 64) (by omega) (by omega) (by omega) (by omega) (hpow ▸ hdvd) ⟨0, by simp⟩
  refine ⟨.ofInt n, Int64.toInt_ofInt_of_le (by omega) (by omega), ?_⟩
  rcases hk with rfl | rfl
  · simp only [decode, htake, encode, hn, hsame]
  · simp only [decode, htake, encode, hn, hsame]

section Engine

variable {σ τ : Type} {host : Host σ} {diary : σ → List (World Unit)}

lemma Engine.setProperty_element (handlers : Host τ) {m : World τ} {e : EngineId}
    {a : ObjectRef} {view : TypedArrayView} {i : UInt32} {key : Value} (he : m.HasEngine e)
    (hshape : (m.engine e).heap.Shapely) (hview : (m.engine e).heap.typedArray? a = some view)
    (hi : i.toNat < view.length) (hkey : (m.engine e).heap.keyOf key = .index i) (v : Value) :
    ∃ m' bytes, setProperty handlers e a key v m = (.ok (), m') ∧
      Reads handlers m' e a (.index i)
        (Element.decode view.kind (Element.write view.kind bytes v.toNumber)) := by
  obtain ⟨o, ho, hb⟩ := (Heap.typedArray?_eq_some_iff _ a view).mp hview
  have hplan := Heap.storePlan_of_tidy ho (hshape.tidy a o ho) (by simp [hb]) (.index i)
  have hstore := Heap.storeOwn_of_typedArray (i := i) hview v
  rw [← hkey] at hplan hstore
  have hfits := hshape.typedArray a view hview
  obtain ⟨bytes, hc, -⟩ := hshape.typedArray a view hview
  have hstop := Heap.stop_le_of_fits hfits hc rfl hi
  have hwritten := Heap.replaced_storeElement v hc hi hstop
  refine ⟨_, (bytes.extract (view.start i.toNat) (view.start i.toNat + view.kind.size)).toList,
    setProperty_of_stored (Heap.isAlive_of_object? _ a o ho) hplan hstore, ?_⟩
  rw [← hwritten.inside]
  refine reads_element ?_ hi ?_
  · rw [World.heap_modifyEngine he]
    exact Heap.typedArray?_storeElement hc hview i.toNat v
  · rw [World.heap_modifyEngine he]
    exact Heap.elementBytes_of_contents hwritten.after (by rwa [Heap.size_overwrite])

theorem bigint_elements_read_nearest (hh : host.Heedful diary nowhere) (w : World σ)
    (hw : w.Charted diary nowhere host) (handlers : Host τ) (m : World τ)
    (hm : m.seen ∈ w.moments diary) (e : EngineId) (he : m.HasEngine e)
    (hroom : (m.engine e).heap.Roomy) (a : ObjectRef) (view : TypedArrayView)
    (hview : (m.engine e).heap.typedArray? a = some view)
    (hkind : view.kind = .bigInt64 ∨ view.kind = .bigUint64) (i : UInt32)
    (hi : i.toNat < view.length) (key : Value) (hkey : (m.engine e).heap.keyOf key = .index i)
    (n : Int64) :
    ∃ (m' : World τ) (x : Binary64) (v : Int64),
      Engine.setProperty handlers e a key (.bigint n) m = (.ok (), m') ∧
      Engine.Reads handlers m' e a (.index i) (.bigint v) ∧
      x.Nearest n.toInt ∧ v.toInt = max (-2 ^ 63) (min x.trunc (2 ^ 63 - 1)) ∧
      ((∃ y : Binary64, y.isFinite = true ∧ y.scaled = n.toInt * Binary64.one) → v = n) := by
  obtain ⟨-, hshape⟩ := hw.shapely hh hm he hroom
  obtain ⟨m', bytes, hset, hreads⟩ :=
    Engine.setProperty_element handlers he hshape hview hi hkey (.bigint n)
  have hlow := n.le_toInt
  have hhigh := n.toInt_lt
  have hnearest : (Binary64.ofInt n.toInt).Nearest n.toInt := Binary64.nearest_ofInt (by omega)
  obtain ⟨v, hv, hdecode⟩ := Element.decode_write_bigint hkind bytes (.ofInt n.toInt)
  refine ⟨m', .ofInt n.toInt, v, hset, hdecode ▸ hreads, hnearest, hv, ?_⟩
  rintro ⟨y, hy, hexact⟩
  -- No double is nearer than one that equals the integer.
  have hclosest := hnearest.closest y hy
  have hscaled : (Binary64.ofInt n.toInt).scaled = n.toInt * Binary64.one := by omega
  rw [(Binary64.trunc_of_scaled hnearest.finite hscaled).2] at hv
  exact Int64.toInt_inj.mp (by omega)

end Engine

def wordy : World Unit :=
  World.after Host.inert { host := () } [.newEngine {}, .attach ⟨0⟩,
    .operate ⟨0⟩ (.newArrayBuffer 8),
    .operate ⟨0⟩ (.newTypedArrayOnBuffer .bigInt64 (.transient (.first 1)) 0 1)]

lemma wordy_view :
    (wordy.engine ⟨0⟩).heap.typedArray? (.first 2) = some ⟨.bigInt64, .first 1, 0, 1⟩ := by
  decide +kernel

theorem bigint_elements_read_nearest_wordy : ∃ (m' : World Unit) (x : Binary64) (v : Int64),
    Engine.setProperty Host.inert ⟨0⟩ (.first 2) (.int 0) (.bigint 9007199254740993) wordy =
      (.ok (), m') ∧
    Engine.Reads Host.inert m' ⟨0⟩ (.first 2) (.index 0) (.bigint v) ∧
    x.Nearest 9007199254740993 ∧ v.toInt = max (-2 ^ 63) (min x.trunc (2 ^ 63 - 1)) := by
  obtain ⟨m', x, v, hset, hreads, hx, hv, -⟩ := bigint_elements_read_nearest Host.inert_heedful
    wordy (World.charted_inert () _) Host.inert wordy
    (by simp [World.moments]) ⟨0⟩ (by decide +kernel) (show _ < _ by decide +kernel) (.first 2) _
    wordy_view (.inl rfl) 0 (by decide) (.int 0) (by decide +kernel) 9007199254740993
  exact ⟨m', x, v, hset, hreads, hx, hv⟩

theorem bigint_element_read_back_rounded :
    (wordy.engine ⟨0⟩).heap.typedArray? (.first 2) = some ⟨.bigInt64, .first 1, 0, 1⟩ ∧
    (Engine.getProperty Host.inert ⟨0⟩ (.first 2) (.int 0)
      (Engine.setProperty Host.inert ⟨0⟩ (.first 2) (.int 0) (.bigint 9007199254740993)
        wordy).2).1 = .ok (.bigint 9007199254740992) := by
  refine ⟨wordy_view, ?_⟩
  decide +kernel

end HostBoundary
