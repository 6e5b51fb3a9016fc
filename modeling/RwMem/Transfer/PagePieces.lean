import RwMem.Transfer.WriteLoop

/-! The pages of a requested range, and that the chunks of a transfer follow them when the
walk realizes an address space.
-/

namespace RwMem.Transfer

open Memory RwMem.Driver

variable {P : Type} (g : PageGeometry) (space : AddressSpace) (addr size : Nat)

/-- The offset in the range at which its `k`-th page starts. -/
abbrev pageOffset (k : Nat) : Nat := pieceStart g.pageSize addr k

/-- How much of the `k`-th page the range takes. -/
def piecePart (k : Nat) : Nat := min size (pageOffset g addr (k + 1)) - pageOffset g addr k

/-- The physical address of the `k`-th page's part, `0` for a page that is not mapped. -/
def piecePhyAddr (k : Nat) : Nat := (space.phyAddr? g (addr + pageOffset g addr k)).getD 0

/-- The `k`-th page is translated and, unless the request is forced, allowed by `bit`. -/
def PageAllowed (bit : PteBits → Bool) (force : Bool) (k : Nat) : Prop :=
  ∃ p, space.pageOf g (addr + pageOffset g addr k) = some p ∧ (force || bit p.bits) = true

variable {g space addr size}

theorem piecePart_pos {k : Nat} (reached : pageOffset g addr k < size)
    : 0 < piecePart g addr size k := by
  have next := pieceStart_lt_succ g.pageSize_pos addr k
  simp only [piecePart, pageOffset] at *
  omega

theorem pageOffset_add_piecePart {k : Nat} (reached : pageOffset g addr k < size)
    : pageOffset g addr k + piecePart g addr size k = min size (pageOffset g addr (k + 1)) := by
  have positive := piecePart_pos reached
  simp only [piecePart] at *
  omega

/-- A mapped page gives its part a physical address with the same offset in the page. -/
theorem piecePhyAddr_of_mapped {k : Nat} {p : Page}
    (mapped : space.pageOf g (addr + pageOffset g addr k) = some p)
    : piecePhyAddr g space addr k
      = p.frame * g.pageSize + (addr + pageOffset g addr k) % g.pageSize := by
  simp only [piecePhyAddr, AddressSpace.phyAddr?, mapped, Option.map_some, Option.getD_some]

theorem piecePhyAddr_mod {k : Nat} {p : Page}
    (mapped : space.pageOf g (addr + pageOffset g addr k) = some p)
    : piecePhyAddr g space addr k % g.pageSize
      = (addr + pageOffset g addr k) % g.pageSize := by
  rw [piecePhyAddr_of_mapped mapped, Nat.mul_comm, Nat.mul_add_mod, Nat.mod_mod]

/-- The size that the loop asks for is the part of the range in that page. -/
theorem pfnSize_eq_piecePart (size : Nat) {k : Nat} {p : Page}
    (mapped : space.pageOf g (addr + pageOffset g addr k) = some p)
    : pfnSize g (piecePhyAddr g space addr k) (size - pageOffset g addr k)
      = piecePart g addr size k := by
  have next := pieceStart_succ g.pageSize_pos addr k
  rw [pfnSize_eq, piecePhyAddr_mod mapped]
  simp only [piecePart, pageOffset] at *
  omega

/-- Inside a page the physical address follows the offset in the range. -/
theorem phyAddr?_of_mem_piece {k i : Nat} {p : Page}
    (mapped : space.pageOf g (addr + pageOffset g addr k) = some p)
    (low : pageOffset g addr k ≤ i) (high : i < pageOffset g addr (k + 1))
    : space.phyAddr? g (addr + i)
      = some (piecePhyAddr g space addr k + (i - pageOffset g addr k)) := by
  have number := pageNumber_of_mem_piece g low high
  have offset := mod_of_mem_piece g.pageSize_pos low high
  have same : space.pageOf g (addr + i) = some p := by
    rw [AddressSpace.pageOf, number]
    exact mapped
  rw [AddressSpace.phyAddr?, same, piecePhyAddr_of_mapped mapped, Option.map_some, offset,
    Nat.add_assoc]

/-- The walk at the wrapped address, for a page that the space maps. -/
theorem walk_of_mapped {walk : Nat → Nat × Option P} {ptes : P → PteBits}
    (realizes : Realizes g walk ptes space) {k : Nat} {p : Page}
    (mapped : space.pageOf g (addr + pageOffset g addr k) = some p)
    : ∃ pte,
        walk (wrap (addr + pageOffset g addr k)) = (piecePhyAddr g space addr k, some pte)
        ∧ ptes pte = p.bits
        ∧ piecePhyAddr g space addr k ≠ 0 := by
  have wrapped : space.pageOf g (wrap (addr + pageOffset g addr k)) = some p := by
    rw [AddressSpace.pageOf, pageNumber, wrap_of_lt (wrap_lt _)]
    exact mapped
  obtain ⟨pte, translated, bits⟩ := realizes.mapped _ (wrap_lt _) p wrapped
  rw [wrap_mod_pageSize, ← piecePhyAddr_of_mapped mapped] at translated
  refine ⟨pte, translated, bits, ?_⟩
  have frame := Nat.mul_pos (Nat.pos_of_ne_zero (space.frame_ne_zero _ p mapped)) g.pageSize_pos
  rw [piecePhyAddr_of_mapped mapped]
  omega

/-- The walk at the wrapped address, for a page that the space does not map. -/
theorem walk_of_unmapped {walk : Nat → Nat × Option P} {ptes : P → PteBits}
    (realizes : Realizes g walk ptes space) {k : Nat}
    (unmapped : space.pageOf g (addr + pageOffset g addr k) = none)
    : (walk (wrap (addr + pageOffset g addr k))).1 = 0 := by
  apply realizes.unmapped _ (wrap_lt _)
  rw [AddressSpace.pageOf, pageNumber, wrap_of_lt (wrap_lt _)]
  exact unmapped

/-- The `l`-th chunk is what the range takes of its `l`-th page, which is allowed. -/
structure FollowsPage (s : Scan P) (space : AddressSpace) (bit : PteBits → Bool)
    (force : Bool) (l : Nat)
    : Prop where
  reached : pageOffset s.geometry s.addr l < s.size
  allowed : PageAllowed s.geometry space s.addr bit force l
  start : s.start l = pageOffset s.geometry s.addr l
  phyAddr : s.phyAddr l = piecePhyAddr s.geometry space s.addr l
  part : s.part l = piecePart s.geometry s.addr s.size l

variable {s : Scan P} {ptes : P → PteBits} {bit : PteBits → Bool} {force : Bool}

/-- A chunk that starts with its page is allowed exactly when the page is. -/
theorem allowed_iff_pageAllowed (realizes : Realizes s.geometry s.walk ptes space) {l : Nat}
    (start : s.start l = pageOffset s.geometry s.addr l)
    : s.Allowed bit ptes force l ↔ PageAllowed s.geometry space s.addr bit force l := by
  rw [Scan.Allowed, Scan.phyAddr, Scan.translation, start, PageAllowed]
  cases page : space.pageOf s.geometry (s.addr + pageOffset s.geometry s.addr l) with
  | none => simp [walk_of_unmapped realizes page]
  | some p =>
      obtain ⟨pte, walk, bits, nonzero⟩ := walk_of_mapped realizes page
      simp [walk, nonzero, bits]

/-- Such a chunk takes its page's part of the range. -/
theorem followsPage_of_start (realizes : Realizes s.geometry s.walk ptes space) {l : Nat}
    (start : s.start l = pageOffset s.geometry s.addr l)
    (reached : s.start l < s.size) (allowed : s.Allowed bit ptes force l)
    : FollowsPage s space bit force l := by
  have page := (allowed_iff_pageAllowed realizes start).mp allowed
  have ⟨p, mapped, _⟩ := page
  obtain ⟨pte, walk, -, -⟩ := walk_of_mapped realizes mapped
  have phyAddr : s.phyAddr l = piecePhyAddr s.geometry space s.addr l := by
    rw [Scan.phyAddr, Scan.translation, start, walk]
  refine ⟨start ▸ reached, page, start, phyAddr, ?_⟩
  rw [Scan.part, phyAddr, start, pfnSize_eq_piecePart s.size mapped]

/-- Up to the stop the chunks follow the pages, by induction on the chunks. -/
theorem chunks_follow_pages (realizes : Realizes s.geometry s.walk ptes space) {n : Nat}
    (before : ∀ l < n, s.start l < s.size ∧ s.Allowed bit ptes force l)
    : s.start n = min s.size (pageOffset s.geometry s.addr n)
      ∧ ∀ l < n, FollowsPage s space bit force l := by
  induction n with
  | zero => exact ⟨by simp [Scan.start_zero], fun l less => absurd less (Nat.not_lt_zero l)⟩
  | succ n ih =>
      obtain ⟨here, pages⟩ := ih (fun l less => before l (by omega))
      obtain ⟨reached, allowed⟩ := before n (Nat.lt_succ_self n)
      have page := followsPage_of_start realizes (by omega) reached allowed
      refine ⟨?_, ?_⟩
      · rw [Scan.start_succ, page.start, page.part, pageOffset_add_piecePart page.reached]
      · intro l less
        rcases Nat.lt_succ_iff_lt_or_eq.mp less with earlier | same
        · exact pages l earlier
        · subst same
          exact page

/-- The loop stops where the prefix of allowed pages ends. -/
theorem stopsAt_pages (realizes : Realizes s.geometry s.walk ptes space) {m : Nat}
    (stop : StopsAt s.start s.size (s.Allowed bit ptes force) m)
    : StopsAt (pageOffset s.geometry s.addr) s.size
        (PageAllowed s.geometry space s.addr bit force) m := by
  obtain ⟨here, pages⟩ := chunks_follow_pages realizes stop.before
  refine ⟨fun l before => ⟨(pages l before).reached, (pages l before).allowed⟩, ?_⟩
  by_cases past : s.size ≤ pageOffset s.geometry s.addr m
  · exact Or.inl past
  · have start : s.start m = pageOffset s.geometry s.addr m := by omega
    have refused := stop.here.resolve_left (by omega)
    exact Or.inr (mt (allowed_iff_pageAllowed realizes start).mpr refused)

/-- The bytes of a chunk have the physical addresses behind the start of the chunk. -/
theorem FollowsPage.phyAddr? {l i : Nat} (page : FollowsPage s space bit force l)
    (inside : s.Within l (s.part l) i)
    : space.phyAddr? s.geometry (s.addr + i) = some (s.phyAddr l + (i - s.start l)) := by
  obtain ⟨low, high⟩ := inside
  obtain ⟨p, mapped, -⟩ := page.allowed
  have next := pageOffset_add_piecePart page.reached
  rw [page.start, page.part] at high
  rw [page.start] at low
  rw [phyAddr?_of_mem_piece mapped low (by omega), page.phyAddr, page.start]

end RwMem.Transfer
