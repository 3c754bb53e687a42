import ClaimCells.Operation.Native
import Mathlib.Data.List.TakeWhile
import Mathlib.Tactic

/-!
# Messages for native code

A text that native code reads ends with its first zero. The name of a variable of native code has
none, since it came as such a text and no decoding makes one out of other bytes; so messages about
these variables arrive whole.

Main result: `nativeText_unbound`.
-/

namespace ClaimCells

namespace Text.Utf8

/-! ## Decoding makes no zeros -/

theorem ofNat_ne_zero {n : Nat} (hn : n.isValidChar) (h : n ≠ 0) : Char.ofNat n ≠ '\x00' := by
  rw [Char.ofNat, dif_pos hn]
  exact fun he => h (congrArg Char.toNat he)

namespace Begun

variable {p : Begun} {b : UInt8}

/-- The least number that may come of a character that has begun. -/
def least (p : Begun) : Nat :=
  (p.bits * 64 + (p.low.toNat - 0x80)) * 64 ^ p.more

/-- The number above all that may come of it. -/
def bound (p : Begun) : Nat :=
  (p.bits * 64 + (p.high.toNat - 0x80) + 1) * 64 ^ p.more

/-- Only code points of characters may come of it, and not zero. -/
structure Scalar (p : Begun) : Prop where
  pos : 0 < p.least
  valid : p.bound ≤ 0xD800 ∨ 0xE000 ≤ p.least ∧ p.bound ≤ 0x110000

theorem ofLead?_scalar (h : ofLead? b = some p) : p.Scalar := by
  have hlt := b.toNat_lt
  simp only [ofLead?, UInt8.le_iff_toNat_le, ← UInt8.toNat_inj, UInt8.reduceToNat] at h
  -- one case for each range of lead bytes
  split_ifs at h
  all_goals
    obtain rfl := Option.some.inj h
    constructor <;> simp only [least, bound, UInt8.reduceToNat] <;> omega

/-- The next byte narrows down what may come of it. -/
theorem least_le_bitsWith (h : p.low ≤ b) : p.least ≤ p.bitsWith b * 64 ^ p.more := by
  rw [UInt8.le_iff_toNat_le] at h
  exact Nat.mul_le_mul_right _ (Nat.add_le_add_left (Nat.sub_le_sub_right h _) _)

theorem bitsWith_le_bound (h : b ≤ p.high) : (p.bitsWith b + 1) * 64 ^ p.more ≤ p.bound := by
  rw [UInt8.le_iff_toNat_le] at h
  exact Nat.mul_le_mul_right _ (Nat.succ_le_succ (Nat.add_le_add_left (Nat.sub_le_sub_right h _) _))

/-- The last byte makes a character that is not zero. -/
theorem Scalar.ofNat_ne (h : p.Scalar) (hb : p.low ≤ b ∧ b ≤ p.high) (hm : p.more = 0) :
    Char.ofNat (p.bitsWith b) ≠ '\x00' := by
  have h1 := least_le_bitsWith hb.1
  have h2 := bitsWith_le_bound hb.2
  have h3 := h.pos
  have h4 := h.valid
  rw [hm, pow_zero, Nat.mul_one] at h1 h2
  have hvalid : (p.bitsWith b).isValidChar := by
    rw [Nat.isValidChar]
    omega
  exact ofNat_ne_zero hvalid (by omega)

/-- Any other leaves a character that has begun. -/
theorem Scalar.next {more : Nat} (h : p.Scalar) (hb : p.low ≤ b ∧ b ≤ p.high)
    (hm : p.more = more + 1) : Scalar ⟨p.bitsWith b, 0x80, 0xBF, more⟩ := by
  have h1 := least_le_bitsWith hb.1
  have h2 := bitsWith_le_bound hb.2
  rw [hm] at h1 h2
  have hleast : least ⟨p.bitsWith b, 0x80, 0xBF, more⟩ = p.bitsWith b * 64 ^ (more + 1) := by
    simp only [least, UInt8.reduceToNat]
    ring
  have hbound : bound ⟨p.bitsWith b, 0x80, 0xBF, more⟩ = (p.bitsWith b + 1) * 64 ^ (more + 1) := by
    simp only [bound, UInt8.reduceToNat]
    ring
  refine ⟨hleast ▸ h.pos.trans_le h1, ?_⟩
  rw [hleast, hbound]
  exact h.valid.imp h2.trans (.imp h1.trans' h2.trans)

end Begun

variable {b : UInt8} {bs : Bytes} {begun : Option Begun}

theorem first_nonzero (hb : b ≠ 0) :
    some '\x00' ∉ (first b).1 ∧ ∀ p ∈ (first b).2, p.Scalar := by
  rw [first]
  split
  · next hlt =>
    refine ⟨?_, nofun⟩
    rw [List.mem_singleton, Option.some.injEq]
    have hvalid : b.toNat.isValidChar := .inl (b.toNat_lt.trans (by decide))
    exact (ofNat_ne_zero hvalid fun hn => hb (UInt8.toNat_inj.1 hn)).symm
  · split
    · next p hp => exact ⟨nofun, fun q hq => Option.some.inj hq ▸ Begun.ofLead?_scalar hp⟩
    · exact ⟨by simp, nofun⟩

theorem next_nonzero (hbegun : ∀ p ∈ begun, p.Scalar) (hb : b ≠ 0) :
    some '\x00' ∉ (next begun b).1 ∧ ∀ p ∈ (next begun b).2, p.Scalar := by
  cases begun with
  | none => exact first_nonzero hb
  | some p =>
    have hp := hbegun p rfl
    rw [next]
    split
    · next hr =>
      split
      · next hm => exact ⟨by simpa using (hp.ofNat_ne hr hm).symm, nofun⟩
      · next more hm => exact ⟨nofun, fun q hq => Option.some.inj hq ▸ hp.next hr hm⟩
    · obtain ⟨h1, h2⟩ := first_nonzero hb
      exact ⟨by simpa using h1, h2⟩

theorem pieces_nonzero (hbegun : ∀ p ∈ begun, p.Scalar) (hbs : 0 ∉ bs) :
    some '\x00' ∉ pieces begun bs := by
  induction bs generalizing begun with
  | nil =>
    rw [pieces]
    split <;> simp
  | cons b bs ih =>
    obtain ⟨h1, h2⟩ := next_nonzero hbegun fun hb => hbs (hb ▸ List.mem_cons_self)
    rw [pieces, List.mem_append, not_or]
    exact ⟨h1, ih h2 fun h => hbs (List.mem_cons_of_mem _ h)⟩

theorem decodeLossy_nonzero (hbs : 0 ∉ bs) : '\x00' ∉ (decodeLossy bs).toList := by
  rw [decodeLossy, String.toList_ofList, List.mem_map]
  rintro ⟨c, hc, he⟩
  cases c with
  | none => exact absurd he (by decide)
  | some c =>
    have hbegun : ∀ p ∈ (none : Option Begun), p.Scalar := nofun
    exact pieces_nonzero hbegun hbs ((show c = '\x00' from he) ▸ hc)

end Text.Utf8

/-! ## Messages -/

namespace Action

theorem nativeName_nonzero (name : Option Text.Utf8.Bytes) : '\x00' ∉ (nativeName name).toList := by
  cases name with
  | none => decide
  | some bytes =>
    refine Text.Utf8.decodeLossy_nonzero fun h => ?_
    simpa using List.mem_takeWhile_imp h

/-- A text without zeros is kept as it is. -/
theorem nativeText_eq {s : String} (h : '\x00' ∉ s.toList) : nativeText s = s := by
  have hmap : s.toList.map (fun c => if c = '\x00' then '?' else c) = s.toList.map id := by
    refine List.map_congr_left fun c hc => ?_
    rw [if_neg fun he : c = '\x00' => h (he ▸ hc), id]
  rw [nativeText, hmap, List.map_id, String.ofList_toList]

/-- **Messages about variables of native code arrive whole.** -/
theorem nativeText_unbound (a : Access) (name : Option Text.Utf8.Bytes) :
    nativeText (CellError.unbound a (nativeName name)).message =
      (CellError.unbound a (nativeName name)).message := by
  have happend {u v : String} (hu : '\x00' ∉ u.toList) (hv : '\x00' ∉ v.toList) :
      '\x00' ∉ (u ++ v).toList := by
    rw [String.toList_append, List.mem_append]
    exact not_or.2 ⟨hu, hv⟩
  have hname := nativeName_nonzero name
  apply nativeText_eq
  cases a with
  | locally => exact happend (happend (by decide) hname) (by decide)
  | free => exact happend (happend (by decide) hname) (by decide)

end Action

end ClaimCells
