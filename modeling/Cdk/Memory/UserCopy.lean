import Cdk.Library.WordMemory
import Cdk.Memory.PageGrowth

/-!
# Copies to and from user memory

The kernel copies page by page through the page tables.  A copy to the user checks every page
before it writes a byte.  The result is nothing when an addition overflows, which stops the
kernel.
-/

namespace Cdk.Memory

open PointerTree PageTableEntry WordMemory Met VirtIndices

namespace PageTableManager

/-! ## The loops -/

variable (tables : PageTableManager) (memory : PhysMemory)

/-- The loop of `copy_from_user`: `addr` is `virt + done`, and `left` bytes are left to read. -/
def readLoop (addr left : Nat) : Option (Except PagingError (List UInt8)) :=
  if _more : 0 < left then
    if UInt64.size ≤ addr then none
    else
      let pageOff := addr % pageSize
      let n := min (pageSize - pageOff) left
      match tables.translateUser memory (addr - pageOff) with
      | .error error => some (.error error)
      | .ok phys =>
        (readLoop (addr + n) (left - n)).map fun rest => rest.map fun bytes =>
          (List.range n).map (fun offset => byteAt memory (phys + pageOff + offset)) ++ bytes
  else some (.ok [])
termination_by left
decreasing_by
  have : addr % pageSize < pageSize := Nat.mod_lt _ (by decide)
  omega

/-- Read `len` bytes of user memory. -/
def copyFromUser (virt len : Nat) : Option (Except PagingError (List UInt8)) :=
  if !isUserRange virt len then some (.error .outsideUserRegion)
  else readLoop tables memory virt len

/-- The first loop of `copy_to_user`, over the pages before `limit`. -/
def checkLoop (limit page : Nat) : Option (Except PagingError Unit) :=
  if page < limit then
    match tables.translateUserWritable memory page with
    | .error error => some (.error error)
    | .ok _ =>
      if UInt64.size ≤ page + pageSize then none
      else checkLoop limit (page + pageSize)
  else some (.ok ())
termination_by limit - page
decreasing_by
  simp only [pageSize]
  omega

/-- The second loop of `copy_to_user`: `addr` is `virt + done`, and `data` is left to write. -/
def writeLoop (memory : PhysMemory) (addr : Nat) (data : List UInt8) :
    Option (Except PagingError Unit × PhysMemory) :=
  if _more : 0 < data.length then
    if UInt64.size ≤ addr then none
    else
      let pageOff := addr % pageSize
      let n := min (pageSize - pageOff) data.length
      match tables.translateUserWritable memory (addr - pageOff) with
      | .error error => some (.error error, memory)
      | .ok phys =>
        writeLoop (writeBytes memory (phys + pageOff) (data.take n)) (addr + n) (data.drop n)
  else some (.ok (), memory)
termination_by data.length
decreasing_by
  have : addr % pageSize < pageSize := Nat.mod_lt _ (by decide)
  rw [List.length_drop]
  omega

/-- Write bytes to user memory; nothing is written when a page is missing. -/
def copyToUser (virt : Nat) (data : List UInt8) : Option (Except PagingError Unit × PhysMemory) :=
  if !isUserRange virt data.length then some (.error .outsideUserRegion, memory)
  else if UInt64.size ≤ virt + data.length then none
  else
    match checkLoop tables memory (virt + data.length) (virt - virt % pageSize) with
    | none => none
    | some (.error error) => some (.error error, memory)
    | some (.ok ()) => writeLoop tables memory virt data

/-! ## Walks for the user -/

variable {tables memory} {changed : PhysMemory} {virt parent child : Nat}
  {idx : Fin 512}

theorem descendUser_ok (found : descendUser memory parent idx = .ok child) :
    layout.decode (memory (layout.locate parent idx)) = some child := by
  dsimp only [descendUser] at found
  split at found
  · cases found
  next used =>
  split at found
  · cases found
  · cases found
    exact if_neg used

theorem descend_ok (found : descend memory parent idx = .ok child) :
    layout.decode (memory (layout.locate parent idx)) = some child := by
  dsimp only [descend] at found
  split at found
  · cases found
  next used =>
    cases found
    exact if_neg used

theorem bind_congr_ok {next other : α → Except PagingError β}
    (same : ∀ value, found = .ok value → next value = other value) :
    (found >>= next) = (found >>= other) := by
  cases found with
  | error => rfl
  | ok value => exact same value rfl

theorem exists_of_bind_ok {next : α → Except PagingError β} (isOk : (found >>= next) = .ok value) :
    ∃ first, found = .ok first ∧ next first = .ok value := by
  cases found with
  | error => cases isOk
  | ok first => exact ⟨first, rfl, isOk⟩

/-- The tables that the walk to an address meets are the same. -/
def SameTables (tables : PageTableManager) (memory changed : PhysMemory) (virt : Nat) : Prop :=
  ∀ table, Met memory tables.pml4 (tablePath virt) table → ∀ idx,
    changed (entryPtr table idx) = memory (entryPtr table idx)

theorem translateUser_congr (same : SameTables tables memory changed virt) :
    tables.translateUser changed virt = tables.translateUser memory virt := by
  have here : ∀ {table} idx, Met memory tables.pml4 (tablePath virt) table →
      descendUser changed table idx = descendUser memory table idx := by
    intro table idx met
    rw [descendUser, descendUser, same table met idx]
  unfold translateUser
  split
  · rfl
  dsimp only
  rw [here _ (head _ _ _)]
  apply bind_congr_ok
  intro pdpt isPdpt
  rw [here _ (cons (descendUser_ok isPdpt) (head _ _ _))]
  apply bind_congr_ok
  intro pd isPd
  rw [here _ (cons (descendUser_ok isPdpt) (cons (descendUser_ok isPd) (head _ _ _)))]
  apply bind_congr_ok
  intro pt isPt
  rw [here _ (cons (descendUser_ok isPdpt) (cons (descendUser_ok isPd)
    (cons (descendUser_ok isPt) (head _ _ _))))]

theorem translateUserWritable_congr (same : SameTables tables memory changed virt) :
    tables.translateUserWritable changed virt = tables.translateUserWritable memory virt := by
  have here : ∀ {table} idx, Met memory tables.pml4 (tablePath virt) table →
      descend changed table idx = descend memory table idx := by
    intro table idx met
    rw [descend, descend, same table met idx]
  unfold translateUserWritable
  rw [translateUser_congr same]
  apply bind_congr_ok
  intro phys _
  dsimp only
  rw [here _ (head _ _ _)]
  apply bind_congr_ok
  intro pdpt isPdpt
  rw [here _ (cons (descend_ok isPdpt) (head _ _ _))]
  apply bind_congr_ok
  intro pd isPd
  rw [here _ (cons (descend_ok isPdpt) (cons (descend_ok isPd) (head _ _ _)))]
  apply bind_congr_ok
  intro pt isPt
  rw [same pt (cons (descend_ok isPdpt) (cons (descend_ok isPd)
    (cons (descend_ok isPt) (head _ _ _))))]

/-- The walks see the page of an address only. -/
theorem translate_of_same_page (page : left / pageSize = right / pageSize) :
    tables.translateUser memory left = tables.translateUser memory right ∧
      tables.translateUserWritable memory left = tables.translateUserWritable memory right := by
  simp only [pageSize] at page
  have indices : ofAddr left = ofAddr right := by
    simp only [ofAddr, nineBits, VirtIndices.mk.injEq, Fin.mk.injEq]
    omega
  have range : isUserRange left 1 = isUserRange right 1 := by
    rw [Bool.eq_iff_iff, isUserRange_iff, isUserRange_iff, userBase, userTop]
    omega
  have user : tables.translateUser memory left = tables.translateUser memory right := by
    rw [translateUser, translateUser, indices, range]
  exact ⟨user, by rw [translateUserWritable, translateUserWritable, user, indices]⟩

theorem base_div (addr : Nat) : (addr - addr % pageSize) / pageSize = addr / pageSize := by
  simp only [pageSize]
  omega

theorem not_overflows (inside : address ≤ userTop) : ¬ UInt64.size ≤ address := by
  simp only [userTop] at inside
  simp only [UInt64.size]
  omega

/-- The physical address of a byte of user memory. -/
def userAddress (tables : PageTableManager) (memory : PhysMemory) (address : Nat) : Option Nat :=
  match tables.translateUser memory address with
  | .error _ => none
  | .ok phys => some (phys + address % pageSize)

/-- The page of an address is mapped for the user and writable. -/
def UserWritable (tables : PageTableManager) (memory : PhysMemory) (address : Nat) : Prop :=
  ∃ phys, tables.translateUserWritable memory address = .ok phys

theorem userAddress_of_ok (found : tables.translateUser memory address = .ok phys) :
    tables.userAddress memory address = some (phys + address % pageSize) := by
  rw [userAddress, found]

theorem userAddress_add {addr phys offset : Nat}
    (found : tables.translateUser memory addr = .ok phys)
    (inside : offset < pageSize - addr % pageSize) :
    tables.userAddress memory (addr + offset) = some (phys + addr % pageSize + offset) := by
  simp only [pageSize] at inside
  have page : (addr + offset) / pageSize = addr / pageSize := by
    simp only [pageSize]
    omega
  have place : (addr + offset) % pageSize = addr % pageSize + offset := by
    simp only [pageSize]
    omega
  rw [userAddress_of_ok ((translate_of_same_page page).1.trans found), place, Nat.add_assoc]

theorem translateUser_of_writable {address phys : Nat}
    (found : tables.translateUserWritable memory address = .ok phys) :
    tables.translateUser memory address = .ok phys := by
  obtain ⟨user, isUser, found⟩ := exists_of_bind_ok found
  obtain ⟨pdpt, -, found⟩ := exists_of_bind_ok found
  obtain ⟨pd, -, found⟩ := exists_of_bind_ok found
  obtain ⟨pt, -, found⟩ := exists_of_bind_ok found
  split at found
  · cases found
    exact isUser
  · cases found

/-! ## Reading -/

/-- The loop reads until it meets an address that is not mapped for the user. -/
theorem readLoop_spec {addr left : Nat} (inside : addr + left ≤ userTop) :
    (∃ error, tables.readLoop memory addr left = some (.error error) ∧
      ∃ offset < left, tables.userAddress memory (addr + offset) = none) ∨
    ∃ bytes, tables.readLoop memory addr left = some (.ok bytes) ∧ bytes.length = left ∧
      ∀ offset < left, ∃ phys, tables.userAddress memory (addr + offset) = some phys ∧
        bytes[offset]? = some (byteAt memory phys) := by
  induction left using Nat.strong_induction_on generalizing addr with
  | _ left ih =>
    have offInside : addr % pageSize < pageSize := Nat.mod_lt _ (by decide)
    rw [readLoop]
    by_cases more : 0 < left
    · rw [dif_pos more, if_neg (not_overflows (Nat.le_of_add_right_le inside))]
      dsimp only
      rw [(translate_of_same_page (base_div addr)).1]
      cases found : tables.translateUser memory addr with
      | error error =>
        refine .inl ⟨error, rfl, 0, more, ?_⟩
        rw [Nat.add_zero, userAddress, found]
      | ok phys =>
        dsimp only
        have chunk : min (pageSize - addr % pageSize) left ≤ left := Nat.min_le_right _ _
        generalize isCount : min (pageSize - addr % pageSize) left = n at chunk
        obtain ⟨error, out, offset, low, missing⟩ | ⟨bytes, out, length, each⟩ :=
          @ih (left - n) (by omega) (addr + n) (by omega)
        · refine .inl ⟨error, by rw [out]; rfl, n + offset, by omega, ?_⟩
          rwa [← Nat.add_assoc]
        refine .inr ⟨_, by rw [out]; rfl, ?_, ?_⟩
        · rw [List.length_append, List.length_map, List.length_range, length]
          omega
        intro offset low
        by_cases first : offset < n
        · refine ⟨_, userAddress_add found (by omega), ?_⟩
          rw [List.getElem?_append_left (by simpa using first)]
          simp [first]
        · obtain ⟨phys', address, byte⟩ := each (offset - n) (by omega)
          refine ⟨phys', ?_, ?_⟩
          · rwa [show addr + n + (offset - n) = addr + offset by omega] at address
          · rw [List.getElem?_append_right (by simpa using first)]
            simpa using byte
    · rw [dif_neg more]
      refine .inr ⟨[], rfl, by simp; omega, fun offset low => absurd low (by omega)⟩

/-! ## Writing -/

theorem checkLoop_spec {limit page : Nat} (inside : limit ≤ userTop)
    (aligned : page % pageSize = 0) :
    (∃ error, tables.checkLoop memory limit page = some (.error error) ∧
      ∃ first, page ≤ first ∧ first < limit ∧ first % pageSize = 0 ∧
        ¬ tables.UserWritable memory first) ∨ tables.checkLoop memory limit page = some (.ok ()) ∧
      ∀ address, page ≤ address → address < limit → tables.UserWritable memory address := by
  induction distance : limit - page using Nat.strong_induction_on generalizing page with
  | _ distance ih =>
    rw [checkLoop]
    by_cases more : page < limit
    · rw [if_pos more]
      cases found : tables.translateUserWritable memory page with
      | error error =>
        refine .inl ⟨error, rfl, page, Nat.le_refl _, more, aligned, ?_⟩
        rintro ⟨phys, ok⟩
        rw [found] at ok
        cases ok
      | ok phys =>
        have size : pageSize = 4096 := rfl
        have fits : ¬ UInt64.size ≤ page + pageSize := by
          simp only [UInt64.size]
          simp only [userTop] at inside
          omega
        dsimp only
        rw [if_neg fits]
        obtain ⟨error, out, first, later, low, start, missing⟩ | ⟨out, each⟩ :=
          @ih (limit - (page + pageSize)) (by omega) (page + pageSize)
            (by rw [Nat.add_mod_right, aligned]) rfl
        · exact .inl ⟨error, out, first, by omega, low, start, missing⟩
        refine .inr ⟨out, fun address high low => ?_⟩
        by_cases here : address < page + pageSize
        · have same : address / pageSize = page / pageSize := by
            rw [size] at aligned here ⊢
            omega
          exact ⟨phys, (translate_of_same_page same).2.trans found⟩
        · exact each address (by omega) low
    · rw [if_neg more]
      exact .inr ⟨rfl, fun address high low => absurd low (by omega)⟩

/-- The addresses of a range have frames of their own: no two addresses are one byte, and no
byte is in a table above them. -/
structure Separate (tables : PageTableManager) (memory : PhysMemory) (virt len : Nat) : Prop where
  distinct : ∀ i < len, ∀ j < len, ∀ phys, tables.userAddress memory (virt + i) = some phys →
    tables.userAddress memory (virt + j) = some phys → i = j
  noTable : ∀ i < len, ∀ j < len, ∀ phys table, tables.userAddress memory (virt + i) = some phys →
    Met memory tables.pml4 (tablePath (virt + j)) table → phys / pageSize ≠ table

theorem SameTables.met (same : SameTables tables memory changed virt)
    (met : Met changed tables.pml4 (tablePath virt) table) :
    Met memory tables.pml4 (tablePath virt) table := by
  obtain ⟨early, late, split, walk⟩ := met
  refine ⟨early, late, split, walk ▸ (follow_congr ?_).symm⟩
  intro before idx after here met found
  refine congrArg layout.decode (same met ⟨before, idx :: after ++ late, ?_, found⟩ idx)
  rw [split, here, List.append_assoc]

theorem SameTables.userAddress (same : SameTables tables memory changed virt) :
    tables.userAddress changed virt = tables.userAddress memory virt := by
  rw [PageTableManager.userAddress, PageTableManager.userAddress, translateUser_congr same]

theorem sameTables_writeBytes (apart : ∀ offset < bytes.length, ∀ table,
      Met memory tables.pml4 (tablePath virt) table → (start + offset) / pageSize ≠ table) :
    SameTables tables memory (writeBytes memory start bytes) virt := by
  intro table met idx
  apply writeBytes_of_outside
  intro offset inside here
  apply apart offset inside table met
  simp only [entryPtr] at here
  simp only [pageSize]
  omega

/-- The loop writes the bytes to their places, and nothing else. -/
theorem writeLoop_spec {addr : Nat} {data : List UInt8} (inside : addr + data.length ≤ userTop)
    (writable : ∀ offset < data.length, tables.UserWritable memory (addr + offset))
    (separate : tables.Separate memory addr data.length) :
    ∃ after, tables.writeLoop memory addr data = some (.ok (), after) ∧
      (∀ offset < data.length, ∀ phys, tables.userAddress memory (addr + offset) = some phys →
          some (byteAt after phys) = data[offset]?) ∧
      ∀ phys, (∀ offset < data.length, tables.userAddress memory (addr + offset) ≠ some phys) →
        byteAt after phys = byteAt memory phys := by
  induction size : data.length using Nat.strong_induction_on generalizing addr data memory with
  | _ size ih =>
    subst size
    rw [writeLoop]
    by_cases more : 0 < data.length
    · obtain ⟨phys, found⟩ := writable 0 more
      rw [Nat.add_zero] at found
      have user := translateUser_of_writable found
      rw [dif_pos more, if_neg (not_overflows (Nat.le_of_add_right_le inside))]
      dsimp only
      rw [(translate_of_same_page (base_div addr)).2, found]
      dsimp only
      have offInside : addr % pageSize < pageSize := Nat.mod_lt _ (by decide)
      have chunk : min (pageSize - addr % pageSize) data.length ≤ data.length :=
        Nat.min_le_right _ _
      have page : min (pageSize - addr % pageSize) data.length ≤ pageSize - addr % pageSize :=
        Nat.min_le_left _ _
      have nonempty : 0 < min (pageSize - addr % pageSize) data.length := by omega
      generalize min (pageSize - addr % pageSize) data.length = n at chunk page nonempty
      have here : ∀ offset < n, tables.userAddress memory (addr + offset) =
          some (phys + addr % pageSize + offset) := fun offset low =>
        userAddress_add user (by omega)
      have taken : (data.take n).length = n := by rw [List.length_take]; omega
      have left : (data.drop n).length = data.length - n := List.length_drop
      have later : ∀ j < (data.drop n).length, SameTables tables memory
          (writeBytes memory (phys + addr % pageSize) (data.take n)) (addr + n + j) := by
        intro j low
        rw [Nat.add_assoc]
        apply sameTables_writeBytes
        intro offset short table met
        rw [taken] at short
        exact separate.noTable offset (by omega) (n + j) (by omega) _ table (here offset short) met
      have written := fun place =>
        @byteAt_writeBytes memory (phys + addr % pageSize) place (data.take n)
      generalize writeBytes memory (phys + addr % pageSize) (data.take n) = next at later written
      have addresses : ∀ j < (data.drop n).length,
          tables.userAddress next (addr + n + j) = tables.userAddress memory (addr + (n + j)) := by
        intro j low
        rw [(later j low).userAddress, Nat.add_assoc]
      obtain ⟨after, out, bytes, others⟩ := @ih (data.drop n).length (by omega) next (addr + n)
        (data.drop n) (by omega)
        (fun offset low => by
          obtain ⟨place, isPlace⟩ := writable (n + offset) (by omega)
          refine ⟨place, ?_⟩
          rw [translateUserWritable_congr (later offset low), Nat.add_assoc, isPlace])
        ⟨fun i low j low' place atI atJ => by
          rw [addresses i low] at atI
          rw [addresses j low'] at atJ
          have := separate.distinct (n + i) (by omega) (n + j) (by omega) place atI atJ
          omega,
        fun i low j low' place table atI met => by
          rw [addresses i low] at atI
          have met := (later j low').met met
          rw [Nat.add_assoc] at met
          exact separate.noTable (n + i) (by omega) (n + j) (by omega) place table atI met⟩ rfl
      refine ⟨after, out, fun offset low place isPlace => ?_, fun place apart => ?_⟩
      · by_cases first : offset < n
        · -- The byte is in this page, and the later writes miss it.
          rw [here offset first] at isPlace
          obtain rfl := Option.some.inj isPlace
          rw [others, written, if_pos (Nat.le_add_right _ _), Nat.add_sub_cancel_left,
            List.getElem?_take_of_lt first, List.getElem?_eq_getElem low, Option.getD_some]
          intro j low' again
          rw [addresses j low'] at again
          have := separate.distinct offset low (n + j) (by omega) _ (here offset first) again
          omega
        · have again := bytes (offset - n) (by omega) place
          rw [addresses (offset - n) (by omega), show n + (offset - n) = offset by omega] at again
          rw [again isPlace, List.getElem?_drop, show n + (offset - n) = offset by omega]
      · rw [others, written]
        · split
          next start =>
            rw [List.getElem?_eq_none, Option.getD_none]
            rw [taken]
            by_contra short
            apply apart (place - (phys + addr % pageSize)) (by omega)
            rw [here _ (by omega)]
            congr 1
            omega
          · rfl
        · intro j low
          rw [addresses j low]
          exact apart (n + j) (by omega)
    · rw [dif_neg more]
      exact ⟨memory, rfl, fun offset low => absurd low (by omega), fun _ _ => rfl⟩

/-! ## The copies -/

/-- What a copy to the user is to do. -/
structure Wrote (tables : PageTableManager) (memory : PhysMemory) (virt : Nat)
    (data : List UInt8) (result : Except PagingError Unit) (after : PhysMemory) : Prop where
  ok_iff : result = .ok () ↔ isUserRange virt data.length ∧
    ∀ offset < data.length, tables.UserWritable memory (virt + offset)
  bytes : result = .ok () → ∀ offset < data.length, ∀ phys,
    tables.userAddress memory (virt + offset) = some phys → some (byteAt after phys) = data[offset]?
  others : result = .ok () → ∀ phys,
    (∀ offset < data.length, tables.userAddress memory (virt + offset) ≠ some phys) →
      byteAt after phys = byteAt memory phys
  unchanged : result ≠ .ok () → after = memory

/-- What a copy from the user is to do. -/
structure Read (tables : PageTableManager) (memory : PhysMemory) (virt len : Nat)
    (result : Except PagingError (List UInt8)) : Prop where
  ok_iff : (∃ bytes, result = .ok bytes) ↔ isUserRange virt len ∧
    ∀ offset < len, ∃ phys, tables.userAddress memory (virt + offset) = some phys
  bytes : ∀ bytes, result = .ok bytes → bytes.length = len ∧
    ∀ offset < len, ∃ phys, tables.userAddress memory (virt + offset) = some phys ∧
      bytes[offset]? = some (byteAt memory phys)

/-- Whether a copy does what it is to do.  The check of an empty copy inside a page looks at
that page. -/
def Checkable (tables : PageTableManager) (memory : PhysMemory) (virt : Nat)
    (data : List UInt8) : Prop :=
  data ≠ [] ∨ virt % pageSize = 0 ∨ ¬ isUserRange virt data.length ∨
    tables.UserWritable memory virt

/-- Where a range is checkable and all its addresses are writable, so is its first one, also if
the range is empty. -/
theorem Checkable.userWritable
    {data : List UInt8}
    (checkable : tables.Checkable memory virt data)
    (range : isUserRange virt data.length)
    (unaligned : virt % pageSize ≠ 0)
    (writable : ∀ offset < data.length, tables.UserWritable memory (virt + offset)) :
    tables.UserWritable memory virt := by
  obtain nonempty | aligned | outside | first := checkable
  · exact writable 0 (List.length_pos_of_ne_nil nonempty)
  · exact absurd aligned unaligned
  · exact absurd range outside
  · exact first

/-- The first page of a range, by the page it begins in. -/
theorem userWritable_of_same_page
    (page : left / pageSize = right / pageSize)
    (writable : tables.UserWritable memory left) :
    tables.UserWritable memory right := by
  obtain ⟨phys, found⟩ := writable
  exact ⟨phys, (translate_of_same_page page).2.symm.trans found⟩

theorem copyToUser_wrote
    {data : List UInt8}
    (checkable : tables.Checkable memory virt data)
    (separate : tables.Separate memory virt data.length) :
    ∃ result after, tables.copyToUser memory virt data = some (result, after) ∧
      tables.Wrote memory virt data result after := by
  rw [copyToUser]
  by_cases range : isUserRange virt data.length
  · have inside := (isUserRange_iff.mp range).2
    have size : pageSize = 4096 := rfl
    have aligned : (virt - virt % pageSize) % pageSize = 0 := by
      rw [size]
      omega
    rw [if_neg (by rw [range]; exact Bool.false_ne_true), if_neg (not_overflows inside)]
    obtain ⟨error, out, first, high, low, start, missing⟩ | ⟨out, each⟩ :=
      @checkLoop_spec tables memory _ _ inside aligned
    · rw [out]
      refine ⟨.error error, memory, rfl, ⟨nofun, ?_⟩, nofun, nofun, fun _ => rfl⟩
      rintro ⟨-, writable⟩
      -- The page that is missing holds an address of the range, or the first address.
      refine absurd ?_ missing
      by_cases later : virt ≤ first
      · have := writable (first - virt) (by omega)
        rwa [Nat.add_sub_cancel' later] at this
      have unaligned : virt % pageSize ≠ 0 := by
        omega
      have same : virt / pageSize = first / pageSize := by
        rw [size] at start high ⊢
        omega
      exact userWritable_of_same_page same (checkable.userWritable range unaligned writable)
    · rw [out]
      have writable : ∀ offset < data.length, tables.UserWritable memory (virt + offset) :=
        fun offset low => each _ (by omega) (by omega)
      obtain ⟨after, out, bytes, others⟩ := writeLoop_spec inside writable separate
      exact ⟨.ok (), after, out, ⟨fun _ => ⟨range, writable⟩, fun _ => rfl⟩, fun _ => bytes,
        fun _ => others, fun failed => absurd rfl failed⟩
  · rw [if_pos (by simpa using range)]
    exact ⟨_, memory, rfl, ⟨nofun, fun holds => absurd holds.1 range⟩, nofun, nofun, fun _ => rfl⟩

/-- An empty copy that succeeds inside a page has found the page writable. -/
theorem checkable_of_wrote
    {data : List UInt8}
    (out : tables.copyToUser memory virt data = some (result, after))
    (wrote : tables.Wrote memory virt data result after) :
    tables.Checkable memory virt data := by
  by_contra unchecked
  simp only [Checkable, not_or, not_not] at unchecked
  obtain ⟨rfl, unaligned, range, missing⟩ := unchecked
  obtain rfl := wrote.ok_iff.mpr ⟨range, fun offset low => absurd low (Nat.not_lt_zero _)⟩
  have inside := (isUserRange_iff.mp range).2
  have size : pageSize = 4096 := rfl
  have aligned : (virt - virt % pageSize) % pageSize = 0 := by
    rw [size]
    omega
  rw [copyToUser, if_neg (by rw [range]; exact Bool.false_ne_true),
    if_neg (not_overflows inside)] at out
  obtain ⟨error, failed, -⟩ | ⟨-, each⟩ := @checkLoop_spec tables memory _ _ inside aligned
  · rw [failed] at out
    cases out
  · have before : virt - virt % pageSize < virt + 0 :=
      Nat.sub_lt (Nat.pos_of_ne_zero fun zero => unaligned (by rw [zero]; rfl))
        (Nat.pos_of_ne_zero unaligned)
    have first := each _ (Nat.le_refl _) before
    exact missing (userWritable_of_same_page (base_div virt) first)

theorem copyFromUser_read (tables : PageTableManager) (memory : PhysMemory) (virt len : Nat) :
    ∃ result, tables.copyFromUser memory virt len = some result ∧
      tables.Read memory virt len result := by
  rw [copyFromUser]
  by_cases range : isUserRange virt len
  · rw [if_neg (by rw [range]; exact Bool.false_ne_true)]
    obtain ⟨error, out, offset, low, missing⟩ | ⟨bytes, out, length, each⟩ :=
      @readLoop_spec tables memory _ _ (isUserRange_iff.mp range).2
    · refine ⟨_, out, ⟨nofun, ?_⟩, nofun⟩
      rintro ⟨-, mapped⟩
      obtain ⟨phys, found⟩ := mapped offset low
      rw [missing] at found
      cases found
    · refine ⟨_, out, ⟨fun _ => ⟨range, fun offset low => ?_⟩, fun _ => ⟨bytes, rfl⟩⟩, ?_⟩
      · obtain ⟨phys, found, -⟩ := each offset low
        exact ⟨phys, found⟩
      · rintro _ ⟨⟩
        exact ⟨length, each⟩
  · rw [if_pos (by simpa using range)]
    exact ⟨_, rfl, ⟨nofun, fun holds => absurd holds.1 range⟩, nofun⟩

/-- Copies are exact and confined, and all or nothing, and no addition overflows: every copy
from the user, and a copy to the user whose addresses have frames of their own exactly if it
is not empty, or begins at a page, outside the user region or in a page that is writable. -/
theorem user_copies_exact_iff
    (tables : PageTableManager)
    (memory : PhysMemory)
    (virt : Nat) :
    (∀ data : List UInt8, tables.Separate memory virt data.length →
      ((∃ result after, tables.copyToUser memory virt data = some (result, after) ∧
          tables.Wrote memory virt data result after) ↔
        data ≠ [] ∨ virt % pageSize = 0 ∨ ¬ isUserRange virt data.length ∨
          tables.UserWritable memory virt)) ∧
    ∀ len, ∃ result, tables.copyFromUser memory virt len = some result ∧
      tables.Read memory virt len result := by
  refine ⟨?_, copyFromUser_read tables memory virt⟩
  intro data separate
  constructor
  · rintro ⟨result, after, out, wrote⟩
    exact checkable_of_wrote out wrote
  · intro checkable
    exact copyToUser_wrote checkable separate

/-- Two pages of user memory in frames that are not neighbours. -/
def userPages : PhysMemory := fun word =>
  if word = 513 then 0x2007 else if word = 1024 then 0x3007 else if word = 1536 then 0x4007
  else if word = 2048 then 0x9007 else if word = 2049 then 0xb007 else 0

/-- The last two addresses of the first page and the first of the second. -/
theorem userAddress_userPages : ∀ i < 3,
    (⟨1, 0⟩ : PageTableManager).userAddress userPages (userBase + 4094 + i) =
      [0x9ffe, 0x9fff, 0xb000][i]? := by
  decide +kernel

theorem separate_userPages :
    (⟨1, 0⟩ : PageTableManager).Separate userPages (userBase + 4094) 3 := by
  constructor
  · intro i low j low' phys atI atJ
    rw [userAddress_userPages i low] at atI
    rw [userAddress_userPages j low', ← atI] at atJ
    clear atI
    revert i j
    decide
  intro i low j low' phys table atI met
  rw [userAddress_userPages i low] at atI
  have frames : ∀ phys ∈ [0x9ffe, 0x9fff, 0xb000], phys / pageSize ∉ [1, 2, 3, 4] := by
    decide
  have apart := frames phys (List.mem_of_getElem? atI)
  obtain ⟨early, late, split, walk⟩ := met
  have upper : early ∈ (tablePath (userBase + 4094 + j)).inits :=
    (List.mem_inits _ _).mpr ⟨late, split.symm⟩
  have tables : ∀ j < 3, ∀ early ∈ (tablePath (userBase + 4094 + j)).inits,
      follow layout userPages 1 early ∈ [1, 2, 3, 4].map some := by
    decide +kernel
  have found := tables j low' early upper
  rw [show follow layout userPages 1 early = some table from walk] at found
  obtain ⟨frame, listed, same⟩ := List.mem_map.mp found
  obtain rfl := Option.some.inj same
  rintro rfl
  exact apart listed

/-- Three bytes across the boundary of two pages. -/
theorem user_copies_exact_across_pages :
    ∃ after,
      (⟨1, 0⟩ : PageTableManager).copyToUser userPages (userBase + 4094) [7, 8, 9] =
        some (.ok (), after) ∧
      [0x9ffe, 0x9fff, 0xb000].map (byteAt after) = [7, 8, 9] ∧
      ∃ result, (⟨1, 0⟩ : PageTableManager).copyFromUser userPages (userBase + 4094) 3 =
          some result ∧
        (⟨1, 0⟩ : PageTableManager).Read userPages (userBase + 4094) 3 result := by
  obtain ⟨copies, reads⟩ := user_copies_exact_iff ⟨1, 0⟩ userPages (userBase + 4094)
  obtain ⟨result, after, out, wrote⟩ := (copies [7, 8, 9] separate_userPages).mpr (.inl nofun)
  have writable : ∀ offset < 3, (⟨1, 0⟩ : PageTableManager).translateUserWritable userPages
      (userBase + 4094 + offset) = .ok ([0x9000, 0x9000, 0xb000].getD offset 0) := by
    decide +kernel
  obtain rfl := wrote.ok_iff.mpr ⟨by decide, fun offset low => ⟨_, writable offset low⟩⟩
  have byte : ∀ i < 3, ∀ phys, [0x9ffe, 0x9fff, 0xb000][i]? = some phys →
      some (byteAt after phys) = [7, 8, 9][i]? := by
    intro i low phys isPhys
    exact wrote.bytes rfl i low phys ((userAddress_userPages i low).trans isPhys)
  refine ⟨after, out, ?_, reads 3⟩
  rw [List.map_cons, List.map_cons, List.map_cons, Option.some.inj (byte 0 (by decide) _ rfl),
    Option.some.inj (byte 1 (by decide) _ rfl), Option.some.inj (byte 2 (by decide) _ rfl),
    List.map_nil]

/-- An empty copy to an address inside a page that is not mapped fails, although it touches
no page. -/
theorem empty_copy_fails : isUserRange (userBase + 1) 0 ∧
    ((⟨1, 0⟩ : PageTableManager).copyToUser (fun _ => 0) (userBase + 1) []).map Prod.fst =
      some (.error .notMapped) := by
  refine ⟨by decide, ?_⟩
  have missing : (⟨1, 0⟩ : PageTableManager).translateUserWritable (fun _ => 0)
      (userBase + 1 - (userBase + 1) % pageSize) = .error .notMapped := by decide +kernel
  rw [copyToUser, if_neg (by decide), if_neg (by decide), checkLoop, if_pos (by decide), missing]
  rfl

end PageTableManager

end Cdk.Memory
