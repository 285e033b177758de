import KernelLink.Stderr.Buffer
/-!
# The newest bytes

A buffer of captured error output keeps the newest bytes. Dropping old bytes now or later comes to
the same, so what is kept depends only on all that was added since the buffer was emptied.

Main definition:
* `Buffer.Fits`: a buffer keeps no more than its limit.

Main results:
* `Buffer.newest_append`: dropping early or late.
* `Buffer.newest_suffix_iff`: when only new bytes are kept.
-/
namespace KernelLink.Stderr.Buffer

/-! ## The end of a list -/

theorem newest_suffix (n : Nat) (bs : List UInt8) : newest n bs <:+ bs := List.drop_suffix _ _

theorem newest_of_le {n : Nat} {bs : List UInt8} (h : bs.length ≤ n) : newest n bs = bs := by
  unfold newest
  rw [Nat.sub_eq_zero_of_le h, List.drop_zero]

theorem length_newest (n : Nat) (bs : List UInt8) : (newest n bs).length = min n bs.length := by
  unfold newest
  rw [List.length_drop]
  omega

/-- Dropping old bytes before more are added makes no difference: both are ends of the same list,
and they are of one length. -/
theorem newest_append (n : Nat) (as bs : List UInt8) :
    newest n (newest n as ++ bs) = newest n (as ++ bs) := by
  -- both are ends of the same list, and they are of one length
  have hearly : newest n (newest n as ++ bs) <:+ as ++ bs := by
    obtain ⟨front, hfront⟩ := newest_suffix n as
    refine (newest_suffix n _).trans ⟨front, ?_⟩
    rw [← List.append_assoc, hfront]
  have hlate : newest n (as ++ bs) <:+ as ++ bs := newest_suffix n _
  have hlen : (newest n (newest n as ++ bs)).length = (newest n (as ++ bs)).length := by
    simp only [length_newest, List.length_append]
    omega
  exact (List.suffix_of_suffix_length_le hearly hlate (Nat.le_of_eq hlen)).eq_of_length hlen

/-- Only bytes at the end are kept if there are none before them, or enough of them. -/
theorem newest_suffix_iff {n : Nat} {as : List UInt8} (bs : List UInt8) (h : as.length ≤ n) :
    newest n (as ++ bs) <:+ bs ↔ as = [] ∨ n ≤ bs.length := by
  constructor
  · intro hs
    have hlen := hs.length_le
    rw [length_newest, List.length_append] at hlen
    rcases Nat.lt_or_ge bs.length n with hlt | hge
    · have hnil : as.length = 0 := by omega
      exact Or.inl (List.length_eq_zero_iff.mp hnil)
    · exact Or.inr hge
  · rintro (rfl | hge)
    · exact newest_suffix n bs
    · have hlen : (newest n (as ++ bs)).length ≤ bs.length := by
        rw [length_newest]
        omega
      exact List.suffix_of_suffix_length_le (newest_suffix n _) (List.suffix_append as bs) hlen

/-! ## Buffers -/

/-- The buffer keeps no more than its limit. -/
def Fits (b : Buffer) : Prop := b.bytes.length ≤ b.limit

theorem fits_new (limit : Nat) : (new limit).Fits := Nat.zero_le _

end KernelLink.Stderr.Buffer
