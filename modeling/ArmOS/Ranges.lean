import ArmOS.Areas

/-!
Ranges of addresses and the areas in them. `vm_validate_user_range` goes from area to
area.
-/
namespace ArmOS.Ranges
open Words Vma Areas

variable {vmas : List Area}

/-- Every address from `cursor` on is in an area with the flags. -/
def Covered (vmas : List Area) (stop : Nat) (required_flags : Flags) (cursor : Nat) : Prop :=
  ∀ address, cursor ≤ address → address < stop → ∃ v ∈ vmas, v.Has address ∧ v.flags.includes required_flags = true

/-- The loop ends within as many turns as there are bytes, with the answer. -/
theorem validate_from_iff {stop : Nat} {required_flags : Flags} (sorted : Sorted vmas) (turns cursor : Nat)
    (enough : stop - cursor < turns) : ∃ result, validate_from vmas stop required_flags turns cursor = some result ∧
      (result = true ↔ Covered vmas stop required_flags cursor) := by
  induction turns generalizing cursor with
  | zero => omega
  | succ turns ih =>
    unfold validate_from
    split
    · rename_i finished
      exact ⟨_,rfl,fun _ address above below => by omega,fun _ => rfl⟩
    rename_i more
    split
    · rename_i missing
      refine ⟨_,rfl,nofun,fun covered => ?_⟩
      obtain ⟨v,member,has,_⟩ := covered cursor le_rfl (by omega)
      exact absurd has (by simpa using List.find?_eq_none.mp missing v member)
    rename_i v found
    have member := List.mem_of_find?_eq_some found
    have has : v.Has cursor := by simpa using List.find?_some found
    split
    · rename_i refused
      refine ⟨_,rfl,nofun,fun covered => ?_⟩
      obtain ⟨w,other,also,flags⟩ := covered cursor le_rfl (by omega)
      have symm : Std.Symm fun a b : Area => ∀ address, ¬ (a.Has address ∧ b.Has address) :=
        ⟨fun _ _ apart address both => apart address both.symm⟩
      obtain rfl : v = w := by
        by_contra differs
        exact sorted.disjoint.forall member other differs cursor ⟨has,also⟩
      rcases refused with lacking | short
      · simp [flags] at lacking
      · exact absurd has.2 (by omega)
    rename_i accepted
    have flags : v.flags.includes required_flags = true := by simpa using (not_or.mp accepted).1
    have past := has.2
    obtain ⟨result,ended,correct⟩ := ih (if v.stop < stop then v.stop else stop) (by split <;> omega)
    refine ⟨result,ended,correct.trans
      ⟨fun later address above below => ?_,fun covered address above below => covered address ?_ below⟩⟩
    · by_cases inside : address < v.stop
      · exact ⟨v,member,⟨has.1.trans above,inside⟩,flags⟩
      · exact later address (by split <;> omega) below
    · split at above <;> omega

/-- The check ends, and says whether areas with the flags cover the range. -/
theorem validate_user_range_iff (image : Image) (sorted : Sorted vmas) {address length : Nat} (word : address < wordCount)
    (size : length < wordCount) (required_flags : Flags) :
    ∃ result, vm_validate_user_range image vmas address length required_flags = some result ∧
      (result = true ↔ required_flags ≠ .none ∧ length ≠ 0 ∧ address + length < wordCount ∧
        address + length ≤ USER_SPACE_END ∧
        memory_range_overlaps_low_kernel_alias image address (address + length) = false ∧
        Covered vmas (address + length) required_flags address) := by
  unfold vm_validate_user_range
  dsimp only
  by_cases fits : address + length < wordCount
  · rw [wrap_of_lt fits]
    split
    · rename_i refused
      refine ⟨_,rfl,nofun,fun ⟨some_flag,some_length,_,user,outside,_⟩ => ?_⟩
      simp only [outside,some_flag,Bool.false_eq_true,or_false,false_or] at refused
      omega
    · rename_i accepted
      simp only [not_or,not_le,not_lt,Bool.not_eq_true] at accepted
      obtain ⟨result,ended,correct⟩ := @validate_from_iff vmas (address + length) required_flags sorted
          (length + 1) address (by omega)
      refine ⟨result,ended,correct.trans ⟨fun covered => ?_,fun all => all.2.2.2.2.2⟩⟩
      exact ⟨accepted.2.1,accepted.1,fits,accepted.2.2.2.1,accepted.2.2.2.2,covered⟩
  · have wrapped : wrap (address + length) ≤ address := by
      unfold wrap wordCount at *
      omega
    rw [if_pos (.inr (.inr (.inl wrapped)))]
    exact ⟨_,rfl,nofun,fun all => absurd all.2.2.1 fits⟩

/-- Two areas side by side cover a range across both. -/
theorem validate_user_range_two :
    Covered [⟨4096,8192,.read_write,0⟩,⟨8192,12288,.read_write,0⟩] 8400 .read_write 8000 := by
  have sorted : Sorted [⟨4096,8192,.read_write,0⟩,⟨8192,12288,.read_write,0⟩] := by
    refine ⟨by simp,by simp,List.pairwise_pair.mpr fun address both => ?_⟩
    exact absurd both.1.2 (not_lt.mpr both.2.1)
  obtain ⟨result,ended,correct⟩ := @validate_user_range_iff _ ⟨USER_SPACE_END,USER_SPACE_END⟩ sorted 8000 400 (by decide)
    (by decide) .read_write
  obtain rfl : true = result := Option.some.inj ((by decide +kernel : _ = some true).symm.trans ended)
  exact (correct.mp rfl).2.2.2.2.2

end ArmOS.Ranges
