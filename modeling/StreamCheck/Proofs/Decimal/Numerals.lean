import Mathlib
import StreamCheck.Decimal.Reader
import StreamCheck.Proofs.Basic
import StreamCheck.Proofs.Smv.Letters

/-! Numerals are read as what they stand for, and so are whole numbers that are written out. The float that is nearest to a
number without a sign has no minus sign either, so none of them is the `-1.0` that stands for what is not known. -/

namespace StreamCheck.Decimal
open Text

/-! ### Whole numbers -/

theorem natural?_of_isDigit {cs : List Char} (h : ∀ c ∈ cs, c.isDigit = true) (hne : cs ≠ [])
    (hlength : cs.length ≤ mostDigits) : natural? cs = some (ofDigits (cs.map fun c => c.toNat - 48)) := by
  have hvalues : cs.filterMap digitValue? = cs.map fun c => c.toNat - 48 := by
    rw [← List.filterMap_eq_map]
    exact List.filterMap_congr fun c hc => digitValue?_of_isDigit (h c hc)
  rw [natural?, hvalues]
  simp [hne, hlength]

theorem natural?_toString {n : Nat} (h : (toString n).length ≤ mostDigits) :
    natural? (toString n).toList = some n := by
  rw [← String.length_toList, Smv.toList_toString_natCast] at h
  rw [Smv.toList_toString_natCast, natural?_of_isDigit (fun _ => Smv.isDigit_of_mem_toDigits) Nat.toDigits_ne_nil h,
    ofDigits_toDigits]

/-! ### Numbers with a point -/

namespace Numeral

theorem isDigit_of_mem_digits {ds : List (Fin 10)} : ∀ c ∈ digits ds, c.isDigit = true := by
  have hdigit : ∀ d : Fin 10, (Nat.digitChar d).isDigit = true := by decide
  intro c hc
  obtain ⟨d, -, rfl⟩ := List.mem_map.1 hc
  exact hdigit d

theorem values_digits (ds : List (Fin 10)) : (digits ds).map (fun c => c.toNat - 48) = ds.map Fin.val := by
  have hvalue : ∀ d : Fin 10, (Nat.digitChar d).toNat - 48 = d := by decide
  rw [digits, List.map_map]
  exact List.map_congr_left fun d _ => hvalue d

variable (n : Numeral)

theorem mem_of_mem_chars : ∀ c ∈ n.chars, c ∈ "0123456789.".toList := by
  have hdigit : ∀ d : Fin 10, Nat.digitChar d ∈ "0123456789.".toList := by decide
  have hdigits {ds : List (Fin 10)} : ∀ c ∈ digits ds, c ∈ "0123456789.".toList := by
    rw [digits, List.forall_mem_map]
    exact fun d _ => hdigit d
  rw [chars, List.forall_mem_append]
  refine ⟨hdigits, ?_⟩
  split_ifs
  · nofun
  · exact List.forall_mem_cons.2 ⟨by decide, hdigits⟩

theorem exists_chars_eq_cons : ∃ c rest, n.chars = c :: rest ∧ c.isDigit = true := by
  obtain ⟨d, ds, hwhole⟩ := List.exists_cons_of_ne_nil n.whole_ne_nil
  have hdigits : digits n.whole = Nat.digitChar d :: digits ds := by
    rw [hwhole]
    rfl
  have hfirst : (Nat.digitChar d).isDigit = true := isDigit_of_mem_digits _ (hdigits ▸ List.mem_cons_self)
  exact ⟨_, _, congrArg (· ++ _) hdigits, hfirst⟩

theorem unsigned?_chars : unsigned? n.chars = some n.value := by
  have hpoint (more : List Char) (follows : Bool) : takeDigits follows ('.' :: more) = ([], '.' :: more) := by
    cases follows <;> rfl
  have hwhole : ((n.whole.map Fin.val).isEmpty) = false := by simp [n.whole_ne_nil]
  rw [unsigned?, chars, value]
  by_cases hfraction : n.fraction = []
  · rw [if_pos hfraction, List.append_nil, takeDigits_of_isDigit isDigit_of_mem_digits, values_digits, hfraction]
    simp [hwhole, exponent?]
  · rw [if_neg hfraction, takeDigits_append isDigit_of_mem_digits (hpoint _), values_digits]
    have hmore : takeDigits false (digits n.fraction) = _ := takeDigits_of_isDigit isDigit_of_mem_digits false
    rw [values_digits] at hmore
    simp [hmore, hwhole, exponent?]

theorem toLower_of_isDigit {c : Char} (h : c.isDigit = true) : c.toLower = c := by
  have hbounds := toNat_of_isDigit h
  refine dif_neg fun hletter => ?_
  have hlow : 65 ≤ c.toNat := UInt32.le_iff_toNat_le.1 hletter.1
  omega

theorem toLower_ne {c d : Char} {cs ds : List Char} (hc : c.isDigit = true) (hd : d.isDigit = false) :
    (String.ofList (c :: cs)).toLower ≠ String.ofList (d :: ds) := by
  intro h
  have hchars := congrArg String.toList h
  rw [String.toLower, String.toList_map, String.toList_ofList, String.toList_ofList, List.map_cons,
    toLower_of_isDigit hc] at hchars
  rw [(List.cons.inj hchars).1, hd] at hc
  exact Bool.false_ne_true hc

theorem real?_chars : real? (String.ofList n.chars) = some n.value := by
  have hstrip : stripBlanks n.chars = n.chars := by
    have hblank : ∀ c ∈ "0123456789.".toList, isBlank c = false := forall_mem_of_all (by decide)
    exact stripBlanks_eq_self fun c hc => hblank c (n.mem_of_mem_chars c hc)
  obtain ⟨c, rest, hchars, hc⟩ := n.exists_chars_eq_cons
  have hsign : takeSign n.chars = (false, n.chars) := by
    rw [hchars, takeSign]
    · rintro _ ⟨rfl, -⟩
      exact absurd hc (by decide)
    · rintro _ ⟨rfl, -⟩
      exact absurd hc (by decide)
  have hword {d : Char} {ds : List Char} (hd : d.isDigit = false) :
      (String.ofList n.chars).toLower ≠ String.ofList (d :: ds) := hchars ▸ toLower_ne hc hd
  rw [real?, String.toList_ofList, hstrip, signed?, hsign]
  simp only [Bool.false_eq_true, if_false, Option.map_id']
  split
  · next h => exact absurd h (hword (by decide))
  · next h => exact absurd h (hword (by decide))
  · next h => exact absurd h (hword (by decide))
  · exact n.unsigned?_chars

end Numeral

open Float.Model

/-! ### The sign of a float in parts -/

def IsUnsigned : UnpackedFloat → Prop
  | .infinity s | .zero s | .finite s _ _ _ => s = .positive
  | .notANumber => True

section
open UnpackedFloat
variable {spec : Format} {a b x : UnpackedFloat}

namespace IsUnsigned

theorem unpackSign_pack (h : IsUnsigned x) : unpackSign (UnpackedFloat.pack spec x) = 0#1 := by
  cases x with
  | notANumber => exact unpackSign_packComponents .positive ..
  | infinity s | zero s =>
    obtain rfl : s = .positive := h
    exact unpackSign_packComponents .positive ..
  | finite s m e hm =>
    obtain rfl : s = .positive := h
    unfold UnpackedFloat.pack
    dsimp only
    split_ifs <;> exact unpackSign_packComponents .positive ..

theorem unpack_of_sign {bits : BitVec spec.numBits} (h : unpackSign bits = 0#1) :
    IsUnsigned (UnpackedFloat.unpack spec bits) := by
  unfold UnpackedFloat.unpack
  dsimp only
  rw [h]
  split_ifs <;> first | rfl | trivial

theorem roundWithAccuracy (m : Nat) (e : Int) (accuracy : Accuracy) :
    IsUnsigned (UnpackedFloat.roundWithAccuracy spec .positive m e accuracy) := by
  unfold UnpackedFloat.roundWithAccuracy
  dsimp only
  split_ifs <;> rfl

theorem mul (ha : IsUnsigned a) (hb : IsUnsigned b) : IsUnsigned (UnpackedFloat.mul spec a b) := by
  cases a <;> cases b <;> cases ha <;> cases hb <;> first | rfl | trivial | exact roundWithAccuracy ..

theorem div (ha : IsUnsigned a) (hb : IsUnsigned b) : IsUnsigned (UnpackedFloat.div spec a b) := by
  cases a <;> cases b <;> cases ha <;> cases hb <;> first | rfl | trivial | exact roundWithAccuracy ..

theorem ofNat (n : Nat) : IsUnsigned (UnpackedFloat.ofNat spec n) := by
  unfold UnpackedFloat.ofNat UnpackedFloat.ofInt UnpackedFloat.normalize
  cases hn : compare (n : Int) 0 with
  | lt => exact absurd (Std.compare_eq_lt.1 hn) (Int.not_lt.2 (Int.natCast_nonneg n))
  | eq => rfl
  | gt => exact roundWithAccuracy ..

theorem ofScientific (m : Nat) (e : Int) : IsUnsigned (UnpackedFloat.ofScientific spec m e) := by
  unfold UnpackedFloat.ofScientific
  split_ifs
  · rfl
  · rfl
  · rfl
  · exact mul rfl rfl
  · exact div rfl rfl

end IsUnsigned

end

/-! ### The sign of a float -/

theorem isUnsigned_pack {x : UnpackedFloat} (h : IsUnsigned x) : IsUnsigned (Float.Model.pack x).unpack :=
  .unpack_of_sign (IsUnsigned.unpackSign_pack h)

theorem isUnsigned_of_bits {x : Float}
    (h : @UnpackedFloat.unpackSign .binary64 x.toModel.toBits.toBitVec = 0#1) : IsUnsigned x.toModel.unpack :=
  .unpack_of_sign h

theorem isUnsigned_powerOfTen : ∀ i (h : i < Float.exactlyRepresentablePowersOfTen.size),
    IsUnsigned (Float.exactlyRepresentablePowersOfTen[i]).toModel.unpack := by
  have hbits : ∀ i (h : i < Float.exactlyRepresentablePowersOfTen.size), @UnpackedFloat.unpackSign .binary64
      (Float.exactlyRepresentablePowersOfTen[i]).toModel.toBits.toBitVec = 0#1 := by
    decide +kernel
  exact fun i h => isUnsigned_of_bits (hbits i h)

theorem isUnsigned_ofScientific (m : Nat) (negative : Bool) (e : Nat) :
    IsUnsigned (Float.ofScientific m negative e).toModel.unpack := by
  unfold Float.ofScientific
  by_cases hexact : m < 2 ^ 53 ∧ e ≤ 22
  · have hpower := isUnsigned_powerOfTen e (Nat.lt_succ_of_le hexact.2)
    have hwhole : IsUnsigned m.toUInt64.toFloat.toModel.unpack := isUnsigned_pack (.ofNat _)
    rw [dif_pos hexact]
    cases negative with
    | false => exact isUnsigned_pack (.mul hwhole hpower)
    | true => exact isUnsigned_pack (.div hwhole hpower)
  · rw [dif_neg hexact]
    exact isUnsigned_pack (.ofScientific ..)

theorem isUnsigned_ofScaled (digits : List Nat) (exponent : Int) :
    IsUnsigned (ofScaled digits exponent).toModel.unpack := by
  unfold ofScaled
  dsimp only
  split_ifs
  · exact isUnsigned_of_bits (by decide +kernel)
  · exact isUnsigned_of_bits (by decide +kernel)
  · exact isUnsigned_ofScientific ..

theorem beq_neg_one_of_isUnsigned {x : Float} (h : IsUnsigned x.toModel.unpack) : (x == -1.0) = false := by
  -- all that is needed of minus one is its sign
  have hminus : ∃ m e hm, (-1.0 : Float).toModel.unpack = .finite .negative m e hm :=
    ⟨4503599627370496, -52, by decide, rfl⟩
  obtain ⟨m, e, hm, hminus⟩ := hminus
  change (x.toModel.unpack.compare (-1.0 : Float).toModel.unpack == some .eq) = false
  rw [hminus]
  cases hx : x.toModel.unpack with
  | notANumber => rfl
  | infinity s | zero s | finite s _ _ _ =>
    rw [hx] at h
    obtain rfl : s = .positive := h
    rfl

end StreamCheck.Decimal
