import ArmOS.Chains

/-!
First-fit allocation from an address-ordered list of free blocks: `take` hands out
the first that is large enough, cut where the rest is worth keeping; `give` puts a
block back and joins it with those it touches.
-/
namespace ArmOS.FreeLists
open Chains List

/-- The first block of at least `total` bytes; a rest of `least` stays. -/
def take (least total : Nat) : List Node → Option (Node × List Node)
  | [] => none
  | b :: rest =>
    if total ≤ b.value then
      if total + least ≤ b.value then some (⟨b.addr,total⟩,⟨b.addr + total,b.value - total⟩ :: rest)
      else some (b,rest)
    else (take least total rest).map (fun found => (found.1,b :: found.2))

/-- `b` before blocks above it, joined with one it touches. -/
def joinAfter (b : Node) : List Node → List Node
  | [] => [b]
  | c :: rest => if b.addr + b.value = c.addr then ⟨b.addr,b.value + c.value⟩ :: rest else b :: c :: rest

/-- Two lists in order, joined where they touch. -/
def joinBefore : List Node → List Node → List Node
  | [], after => after
  | [c], [] => [c]
  | [c], b :: after =>
    if c.addr + c.value = b.addr then ⟨c.addr,c.value + b.value⟩ :: after else c :: b :: after
  | c :: d :: before, after => c :: joinBefore (d :: before) after

/-- The list with `b` put back in address order. -/
def give (b : Node) (free : List Node) : List Node :=
  joinBefore (free.takeWhile (·.addr < b.addr)) (joinAfter b (free.dropWhile (·.addr < b.addr)))
def bytes (blocks : List Node) : Nat := (blocks.map Node.value).sum

/-- One block ends a byte or more before the other. -/
def Below (a b : Node) : Prop := a.addr + a.value < b.addr
def Apart (a b : Node) : Prop := a.addr + a.value ≤ b.addr ∨ b.addr + b.value ≤ a.addr

/-- The free list in order without touching blocks; no two blocks share a byte. -/
structure Arena (low high : Nat) (free used : List Node) : Prop where
  ordered : free.Pairwise Below
  freeInside : ∀ b ∈ free, low ≤ b.addr ∧ b.addr + b.value ≤ high
  usedInside : ∀ b ∈ used, low ≤ b.addr ∧ b.addr + b.value ≤ high
  usedApart : used.Pairwise Apart
  freeUsed : ∀ b ∈ free, ∀ c ∈ used, Apart b c
  freeFull : ∀ b ∈ free, 0 < b.value
  usedFull : ∀ b ∈ used, 0 < b.value

variable {b got : Node} {least total : Nat} {left : List Node} {a : Node}

theorem Apart.symm (apart : Apart a b) : Apart b a := Or.symm apart
theorem Below.apart (below : Below a b) : Apart a b := .inl (le_of_lt below)
theorem bytes_cons (b : Node) (blocks : List Node) : bytes (b :: blocks) = b.value + bytes blocks := by
  simp [bytes]
theorem bytes_append (left right : List Node) : bytes (left ++ right) = bytes left + bytes right := by
  simp [bytes]

/-! ### What `take` finds -/

theorem take_none {free : List Node} (none : take least total free = none) : ∀ b ∈ free, b.value < total := by
  induction free with
  | nil => simp
  | cons b rest ih =>
    simp only [take] at none
    split at none
    · split at none <;> cases none
    rename_i small
    exact forall_mem_cons.mpr ⟨by omega,ih (by simpa using none)⟩

section
variable {free : List Node} (some : take least total free = some (got,left))
include some

theorem take_some :
    ∃ before b after, free = before ++ b :: after ∧ (∀ c ∈ before, c.value < total) ∧ total ≤ b.value ∧
      ((total + least ≤ b.value ∧ got = ⟨b.addr,total⟩ ∧ left = before ++ ⟨b.addr + total,b.value - total⟩ :: after) ∨
       (b.value < total + least ∧ got = b ∧ left = before ++ after)) := by
  induction free generalizing left with
  | nil => cases some
  | cons b rest ih =>
    simp only [take] at some
    split at some
    · rename_i fits
      refine ⟨[],b,rest,rfl,by simp,fits,?_⟩
      grind
    rename_i small
    obtain ⟨⟨found,tail⟩,taken,same⟩ := Option.map_eq_some_iff.mp some
    cases same
    obtain ⟨before,c,after,rfl,smaller,fits,cases⟩ := ih taken
    refine ⟨b :: before,c,after,rfl,?_,fits,?_⟩
    · grind
    · grind

/-- Bytes beyond those asked for are on no list any more. -/
theorem take_bytes :
    bytes left + total + (got.value - total) = bytes free ∧ total ≤ got.value := by
  obtain ⟨before,b,after,rfl,_,fits,⟨_,rfl,rfl⟩ | ⟨_,rfl,rfl⟩⟩ := take_some some
  · simp only [bytes_append,bytes_cons]
    omega
  simp only [bytes_append,bytes_cons]
  omega

/-! ### What `give` leaves -/

/-- Nothing is lost where the first fit is used up or split. -/
theorem take_exact :
    got.value - total = 0 ↔ ∀ b, free.find? (total ≤ ·.value) = Option.some b →
      b.value = total ∨ total + least ≤ b.value := by
  obtain ⟨before,b,after,rfl,small,fits,cases⟩ := take_some some
  have found : (before ++ b :: after).find? (total ≤ ·.value) = Option.some b := by
    have skipped : before.find? (total ≤ ·.value) = none := by
      refine find?_eq_none.mpr ?_
      intro c member
      simpa using small c member
    simp [find?_append,skipped,fits]
  rw [found]
  simp only [Option.some.injEq,forall_eq']
  rcases cases with ⟨splits,rfl,_⟩ | ⟨whole,rfl,_⟩
  · simp [splits]
  · omega

end

theorem joinBefore_concat (before : List Node) (c b : Node) (after : List Node) :
    joinBefore (before ++ [c]) (b :: after) =
      if c.addr + c.value = b.addr then before ++ ⟨c.addr,c.value + b.value⟩ :: after
      else before ++ c :: b :: after := by
  induction before with
  | nil => rfl
  | cons d rest ih =>
    have step : joinBefore (d :: rest ++ [c]) (b :: after) = d :: joinBefore (rest ++ [c]) (b :: after) := by
      cases rest <;> rfl
    rw [step,ih]
    split <;> rfl

/-- What `b` becomes with the blocks above it, and those that stay. -/
def Joined (b : Node) (after : List Node) (joined : Node) (tail : List Node) : Prop :=
  (∃ c, after = c :: tail ∧ b.addr + b.value = c.addr ∧ joined = ⟨b.addr,b.value + c.value⟩) ∨
  (after = tail ∧ (∀ c, tail.head? = some c → b.addr + b.value ≠ c.addr) ∧ joined = b)

theorem joinAfter_joined (b : Node) (after : List Node) :
    ∃ joined tail, joinAfter b after = joined :: tail ∧ Joined b after joined tail := by
  cases after with
  | nil => exact ⟨b,[],rfl,.inr ⟨rfl,by simp,rfl⟩⟩
  | cons c rest =>
    by_cases touch : b.addr + b.value = c.addr
    · exact ⟨_,rest,by simp [joinAfter,touch],.inl ⟨c,rfl,touch,rfl⟩⟩
    refine ⟨b,c :: rest,by simp [joinAfter,touch],.inr ⟨rfl,?_,rfl⟩⟩
    intro d head
    cases head
    exact touch

section
variable {joined : Node} {after tail : List Node} (join : Joined b after joined tail)
include join

theorem Joined.addr :
    joined.addr = b.addr := by
  rcases join with ⟨c,_,_,rfl⟩ | ⟨_,_,rfl⟩ <;> rfl

theorem Joined.bytes :
    joined.value + bytes tail = b.value + bytes after := by
  rcases join with ⟨c,rfl,_,rfl⟩ | ⟨rfl,_,rfl⟩
  · rw [bytes_cons]
    simp only
    omega
  · rfl

end

/-- `give` puts the block between its neighbours, joined. -/
theorem give_cases (b : Node) (free : List Node) :
    ∃ before after joined tail, free = before ++ after ∧ (∀ c ∈ before, c.addr < b.addr) ∧
      (∀ c, after.head? = some c → b.addr ≤ c.addr) ∧ Joined b after joined tail ∧
      ((∃ init c, before = init ++ [c] ∧ c.addr + c.value = b.addr ∧
          give b free = init ++ ⟨c.addr,c.value + joined.value⟩ :: tail) ∨
       ((∀ c, before.getLast? = some c → c.addr + c.value ≠ b.addr) ∧ give b free = before ++ joined :: tail)) := by
  obtain ⟨joined,tail,joinedIs,join⟩ := joinAfter_joined b (free.dropWhile (·.addr < b.addr))
  refine ⟨free.takeWhile (·.addr < b.addr),free.dropWhile (·.addr < b.addr),joined,tail,
    takeWhile_append_dropWhile.symm,?_,?_,join,?_⟩
  · intro c member
    simpa using List.all_eq_true.mp all_takeWhile c member
  · grind [head?_dropWhile_not]
  unfold give
  rw [joinedIs]
  rcases eq_nil_or_concat (free.takeWhile (·.addr < b.addr)) with empty | ⟨init,c,whole⟩
  · rw [empty]
    exact .inr ⟨by simp,rfl⟩
  rw [concat_eq_append] at whole
  rw [whole,joinBefore_concat,join.addr]
  by_cases touch : c.addr + c.value = b.addr
  · exact .inl ⟨init,c,rfl,touch,by simp [touch]⟩
  · grind

/-- What larger blocks at the same address also have, joined blocks have. -/
theorem give_all {P : Node → Prop} (grows : ∀ c more, P c → P ⟨c.addr,c.value + more⟩) {b : Node} {free : List Node}
    (block : P b) (old : ∀ c ∈ free, P c) : ∀ c ∈ give b free, P c := by
  have after : ∀ late : List Node, (∀ c ∈ late, P c) → ∀ c ∈ joinAfter b late, P c := by
    intro late all
    fun_cases joinAfter b late <;> simp_all
  have before : ∀ early late, (∀ c ∈ early, P c) → (∀ c ∈ late, P c) → ∀ c ∈ joinBefore early late, P c := by
    intro early late
    fun_induction joinBefore early late <;> simp_all
  exact before _ _ (fun c member => old c ((takeWhile_sublist _).subset member))
    (after _ fun c member => old c ((dropWhile_sublist _).subset member))

theorem give_bytes (b : Node) (free : List Node) : bytes (give b free) = bytes free + b.value := by
  obtain ⟨before,after,joined,tail,rfl,_,_,join,⟨init,c,rfl,_,given⟩ | ⟨_,given⟩⟩ := give_cases b free
  · rw [given]
    have := join.bytes
    simp only [bytes_append,bytes_cons] at this ⊢
    simp [bytes] at this ⊢
    omega
  rw [given]
  have := join.bytes
  simp only [bytes_append,bytes_cons] at this ⊢
  omega

section arena
variable {low high : Nat} {free used : List Node}

theorem Arena.take {left : List Node} (arena : Arena low high free used) (least_pos : 0 < least) (total_pos : 0 < total)
    (some : take least total free = some (got,left)) : Arena low high left (⟨got.addr,total⟩ :: used) := by
  obtain ⟨before,b,after,rfl,_,fits,split⟩ := take_some some
  have addrIs : got.addr = b.addr := by rcases split with ⟨_,rfl,_⟩ | ⟨_,rfl,_⟩ <;> rfl
  have member : b ∈ before ++ b :: after := by simp
  have inside := arena.freeInside b member
  obtain ⟨orderedBefore,orderedTail,across⟩ := pairwise_append.mp arena.ordered
  obtain ⟨belowAfter,orderedAfter⟩ := pairwise_cons.mp orderedTail
  -- Every block that stays on the list is apart from the part of `b` handed out.
  have keptApart : ∀ c ∈ left, Apart c ⟨got.addr,total⟩ := by
    intro c kept
    rw [addrIs]
    have outer : c ∈ before ∨ c ∈ after → Apart c ⟨b.addr,total⟩ := by
      rintro (early | late)
      · have := across c early b (by simp)
        unfold Below at this
        exact .inl (by simp only; omega)
      have := belowAfter c late
      unfold Below at this
      exact .inr (by simp only; omega)
    rcases split with ⟨splits,_,rfl⟩ | ⟨_,_,rfl⟩
    · rcases mem_append.mp kept with early | late
      · exact outer (.inl early)
      rcases mem_cons.mp late with rfl | later
      · exact .inr (by simp)
      · exact outer (.inr later)
    · exact outer (mem_append.mp kept)
  -- The rest of `b` lies inside `b`, so it is where `b` was.
  have keptIn : ∀ c ∈ left, ∃ d ∈ before ++ b :: after, d.addr ≤ c.addr ∧ c.addr + c.value = d.addr + d.value ∧
      0 < c.value := by
    intro c kept
    have old : c ∈ before ++ b :: after → ∃ d ∈ before ++ b :: after,
        d.addr ≤ c.addr ∧ c.addr + c.value = d.addr + d.value ∧ 0 < c.value :=
      fun h => ⟨c,h,le_rfl,rfl,arena.freeFull c h⟩
    rcases split with ⟨splits,_,rfl⟩ | ⟨_,_,rfl⟩
    · grind
    · grind
  refine ⟨?_,?_,?_,?_,?_,?_,?_⟩
  · rcases split with ⟨splits,_,rfl⟩ | ⟨_,_,rfl⟩
    · refine pairwise_append.mpr ⟨orderedBefore,pairwise_cons.mpr ⟨?_,orderedAfter⟩,?_⟩
      · intro c late
        have := belowAfter c late
        simp only [Below] at this ⊢
        omega
      intro c early d later
      rcases mem_cons.mp later with rfl | late
      · have := across c early b (by simp)
        simp only [Below] at this ⊢
        omega
      · exact across c early d (by simp [late])
    · exact pairwise_append.mpr ⟨orderedBefore,orderedAfter,fun c early d late => across c early d (by simp [late])⟩
  · intro c kept
    obtain ⟨d,dMember,start,stop,_⟩ := keptIn c kept
    have := arena.freeInside d dMember
    omega
  · intro c kept
    rcases mem_cons.mp kept with rfl | old
    · simp only [addrIs]
      omega
    · exact arena.usedInside c old
  · refine pairwise_cons.mpr ⟨?_,arena.usedApart⟩
    intro c old
    have := arena.freeUsed b member c old
    simp only [Apart,addrIs] at this ⊢
    omega
  · intro c kept d usedMember
    rcases mem_cons.mp usedMember with rfl | old
    · exact keptApart c kept
    obtain ⟨e,eMember,start,stop,_⟩ := keptIn c kept
    have := arena.freeUsed e eMember d old
    simp only [Apart] at this ⊢
    have := arena.usedFull d old
    omega
  · intro c kept
    obtain ⟨_,_,_,_,positive⟩ := keptIn c kept
    exact positive
  exact forall_mem_cons.mpr ⟨total_pos,arena.usedFull⟩

theorem Arena.perm {others : List Node} (arena : Arena low high free used) (perm : used.Perm others) :
    Arena low high free others where
  ordered := arena.ordered
  freeInside := arena.freeInside
  usedInside b member := arena.usedInside b (perm.mem_iff.mpr member)
  usedApart := arena.usedApart.perm perm Apart.symm
  freeUsed b member c listed := arena.freeUsed b member c (perm.mem_iff.mpr listed)
  freeFull := arena.freeFull
  usedFull b member := arena.usedFull b (perm.mem_iff.mpr member)

/-- A used block joined with the free blocks right above it. -/
private theorem Arena.joined {before after tail : List Node} {b joined : Node}
    (arena : Arena low high (before ++ after) (b :: used)) (head : ∀ c, after.head? = some c → b.addr ≤ c.addr)
    (join : Joined b after joined tail) :
    tail.Pairwise Below ∧ (∀ c ∈ tail, c ∈ after ∧ Below joined c) ∧ joined.addr + joined.value ≤ high ∧
      (∀ c ∈ used, Apart joined c) ∧ 0 < joined.value := by
  obtain ⟨_,ordered,_⟩ := pairwise_append.mp arena.ordered
  have full := arena.usedFull b (by simp)
  have inside := arena.usedInside b (by simp)
  have usedApart := (pairwise_cons.mp arena.usedApart).1
  rcases join with ⟨c,rfl,touch,rfl⟩ | ⟨rfl,noTouch,rfl⟩
  · obtain ⟨above,rest⟩ := pairwise_cons.mp ordered
    have member : c ∈ before ++ c :: tail := by simp
    refine ⟨rest,?_,?_,?_,?_⟩
    · grind [Below]
    · have := (arena.freeInside c member).2
      simp only
      omega
    · intro d listed
      have left := usedApart d listed
      have right := arena.freeUsed c member d (by simp [listed])
      have := arena.usedFull d (by simp [listed])
      simp only [Apart] at left right ⊢
      omega
    simp only
    omega
  refine ⟨ordered,?_,inside.2,usedApart,full⟩
  intro c late
  refine ⟨late,?_⟩
  cases after with
  | nil => cases late
  | cons d rest =>
    obtain ⟨above,_⟩ := pairwise_cons.mp ordered
    have start := head d rfl
    have apart := arena.freeUsed d (by simp) joined (by simp)
    have dFull := arena.freeFull d (by simp)
    have different := noTouch d rfl
    unfold Apart at apart
    rcases mem_cons.mp late with rfl | later
    · unfold Below
      omega
    have := above c later
    unfold Below at this ⊢
    omega

/-- The block that `give` changes, and the free ones around it. -/
private theorem Arena.placed {b : Node} (arena : Arena low high free (b :: used)) :
    ∃ front block tail, give b free = front ++ block :: tail ∧ (front ++ block :: tail).Pairwise Below ∧
      (∀ c ∈ front ++ tail, c ∈ free) ∧ low ≤ block.addr ∧ block.addr + block.value ≤ high ∧
      (∀ c ∈ used, Apart block c) ∧ 0 < block.value := by
  obtain ⟨before,after,joined,tail,rfl,earlier,head,join,placed⟩ := give_cases b free
  obtain ⟨orderedTail,tailAbove,high_joined,usedJoined,fullJoined⟩ := arena.joined head join
  obtain ⟨orderedBefore,_,across⟩ := pairwise_append.mp arena.ordered
  have inside := arena.usedInside b (by simp)
  have addrIs := join.addr
  have below : ∀ c ∈ before, c.addr + c.value ≤ b.addr := by
    intro c early
    have := earlier c early
    have := arena.freeUsed c (by simp [early]) b (by simp)
    have := arena.usedFull b (by simp)
    unfold Apart at *
    omega
  rcases placed with ⟨init,c,rfl,touch,given⟩ | ⟨noTouch,given⟩
  · obtain ⟨orderedInit,_,initLast⟩ := pairwise_append.mp orderedBefore
    have cInside := arena.freeInside c (by simp)
    refine ⟨init,_,tail,given,?_,?_,cInside.1,by simp only; omega,?_,by simp only; omega⟩
    · refine pairwise_append.mpr ⟨orderedInit,pairwise_cons.mpr ⟨?_,orderedTail⟩,?_⟩
      · intro d late
        have := (tailAbove d late).2
        simp only [Below] at this ⊢
        omega
      intro d early e later
      have last := initLast d early c (by simp)
      rcases mem_cons.mp later with rfl | late
      · exact last
      · exact across d (by simp [early]) e (tailAbove e late).1
    · grind
    intro e listed
    have left := arena.freeUsed c (by simp) e (by simp [listed])
    have right := usedJoined e listed
    have := arena.usedFull e (by simp [listed])
    simp only [Apart] at left right ⊢
    omega
  refine ⟨before,joined,tail,given,?_,?_,by omega,high_joined,usedJoined,fullJoined⟩
  · refine pairwise_append.mpr
      ⟨orderedBefore,pairwise_cons.mpr ⟨fun d late => (tailAbove d late).2,orderedTail⟩,?_⟩
    intro d early e later
    rcases mem_cons.mp later with rfl | late
    · -- Only the last block below can touch the given one, and it does not.
      have strict : d.addr + d.value ≠ b.addr := by
        obtain ⟨init,c,rfl⟩ := eq_nil_or_concat before |>.resolve_left (ne_nil_of_mem early)
        rw [concat_eq_append] at *
        rcases mem_append.mp early with first | last
        · have := (pairwise_append.mp orderedBefore).2.2 d first c (by simp)
          have := below c (by simp)
          unfold Below at *
          omega
        rw [mem_singleton.mp last]
        exact noTouch c (by simp)
      have := below d early
      unfold Below
      omega
    · exact across d early e (tailAbove e late).1
  · grind

theorem Arena.give {b : Node} (arena : Arena low high free (b :: used)) :
    Arena low high (FreeLists.give b free) used := by
  obtain ⟨front,block,tail,given,ordered,old,start,stop,apart,full⟩ := arena.placed
  have cases : ∀ c ∈ FreeLists.give b free, c ∈ free ∨ c = block := by
    intro c member
    rw [given] at member
    rcases mem_append.mp member with early | later
    · exact .inl (old c (by simp [early]))
    · grind
  have usedOld : ∀ c ∈ used, c ∈ b :: used := fun c listed => by simp [listed]
  refine ⟨given ▸ ordered,?_,fun c listed => arena.usedInside c (usedOld c listed),
    (pairwise_cons.mp arena.usedApart).2,?_,?_,fun c listed => arena.usedFull c (usedOld c listed)⟩
  · intro c member
    rcases cases c member with kept | rfl
    · exact arena.freeInside c kept
    · exact ⟨start,stop⟩
  · grind [freeUsed]
  · grind [freeFull]

section
variable {low high : Nat} {blocks : List Node} (ordered : blocks.Pairwise Below)
  (inside : ∀ b ∈ blocks, low ≤ b.addr ∧ b.addr + b.value ≤ high)
include ordered inside

/-- Between free blocks there is at least a byte. -/
theorem ordered_bytes (nonempty : blocks ≠ []) :
    bytes blocks + (blocks.length - 1) + low ≤ high := by
  induction blocks generalizing low with
  | nil => exact absurd rfl nonempty
  | cons b rest ih =>
    obtain ⟨above,orderedRest⟩ := pairwise_cons.mp ordered
    have first := inside b (by simp)
    rw [bytes_cons,length_cons]
    cases rest with
    | nil =>
      simp only [bytes,map_nil,sum_nil,length_nil]
      omega
    | cons c others =>
      have insideRest : ∀ d ∈ c :: others, b.addr + b.value + 1 ≤ d.addr ∧ d.addr + d.value ≤ high := by
        intro d member
        have := above d member
        unfold Below at this
        exact ⟨by omega,(inside d (by simp [member])).2⟩
      have tail := ih orderedRest insideRest (by simp)
      simp only [length_cons] at tail ⊢
      omega

theorem ordered_whole (room : low < high)
    (whole : bytes blocks = high - low) : blocks = [⟨low,high - low⟩] := by
  have nonempty : blocks ≠ [] := by
    rintro rfl
    simp only [bytes,map_nil,sum_nil] at whole
    omega
  have bound := ordered_bytes ordered inside nonempty
  cases blocks with
  | nil => exact absurd rfl nonempty
  | cons b rest =>
    have empty : rest = [] := by
      rw [length_cons] at bound
      exact length_eq_zero_iff.mp (by omega)
    subst empty
    have first := inside b (by simp)
    have valueIs : b.value = high - low := by simpa [bytes] using whole
    have addrIs : b.addr = low := by omega
    rw [← valueIs,← addrIs]

end

end arena

end ArmOS.FreeLists

