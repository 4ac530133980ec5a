/-
# The heap

`init_heap` of `src/allocator.rs` maps the pages of the heap one after the other.  For each of them
it takes a frame from the frame allocator, and the mapper takes more frames from the same allocator
when it has to make page tables.  Since the allocator hands out every frame once, the pages of the
heap get frames of their own: none is that of another page, and none holds a page table
(`init_heap_backs`).

The mapper is the one of the `x86_64` crate.  It is a parameter (`Mapper`), of which what is
documented is assumed and no more.
-/
import SilOS.Memory.Frames

namespace SilOS.Memory

open Lib BootInfoFrameAllocator

/-- `MapToError<Size4KiB>` -/
inductive MapToError where
  | frameAllocationFailed
  | parentEntryHugePage
  | pageAlreadyMapped
deriving DecidableEq

/-- What `init_heap` uses of `Mapper<Size4KiB>`, with its documented behaviour.  A page is given by
its start address. -/
structure Mapper (api : PhysFrames) where
  /-- The page tables, as the mapper finds them. -/
  State : Type
  /-- `translate_page` -/
  translatePage : State → ℕ → Option api.PhysFrame
  /-- A table above the page maps a huge page there. -/
  HugeParent : State → ℕ → Prop
  /-- The frame holds a page table. -/
  Table : State → api.PhysFrame → Prop
  /-- `map_to`, for a page that is present and writable. -/
  mapTo : State → ℕ → api.PhysFrame → BootInfoFrameAllocator →
    Except Fault (Except MapToError Unit × State × BootInfoFrameAllocator)
  /-- It panics only if `allocate_frame` does. -/
  mapTo_returns : ∀ s page frame a,
    (∀ n ≤ 3, ∃ r, (machine api).run a (List.replicate n ()) = .ok r) →
    ∃ r, mapTo s page frame a = .ok r
  /-- At most three frames are taken from the allocator, and new page tables are in them.  The
  allocation has failed only if the allocator had nothing. -/
  mapTo_frames : ∀ {s page frame a result s' a'}, mapTo s page frame a = .ok (result, s', a') →
    ∃ n ≤ 3, ∃ outs, (machine api).run a (List.replicate n ()) = .ok (outs, a') ∧
      (∀ f, Table s' f → Table s f ∨ some f ∈ outs) ∧
      (result = .error .frameAllocationFailed → none ∈ outs)
  /-- The page is mapped to the frame, and no other page is affected. -/
  mapTo_ok : ∀ {s page frame a s' a'}, mapTo s page frame a = .ok (.ok (), s', a') →
    translatePage s' = Function.update (translatePage s) page (some frame) ∧
      ∀ other, HugeParent s' other → HugeParent s other
  /-- The other errors say that the page cannot be mapped. -/
  mapTo_error : ∀ {s page frame a e s' a'}, mapTo s page frame a = .ok (.error e, s', a') →
    e = .frameAllocationFailed ∨ HugeParent s page ∨ (translatePage s page).isSome

/-! ### The pages of the heap -/

/-- `HEAP_START` -/
def heapStart : ℕ := 0x444444440000

/-- `HEAP_SIZE` -/
def heapSize : ℕ := 8 * 1024 * 1024

/-- `Page::containing_address` -/
def pageOf (addr : ℕ) : ℕ := addr / 4096 * 4096

/-- `page_range` of `init_heap`: the pages from that of the first byte to that of the last. -/
def heapPages : List ℕ := stepBy (pageOf heapStart) (pageOf (heapStart + heapSize - 1) + 1) 4096

lemma length_heapPages : heapPages.length = 2048 := by
  rw [heapPages, stepBy, List.length_map, List.length_range]
  rfl

lemma nodup_heapPages : heapPages.Nodup := nodup_stepBy (by omega)

/-- The bytes of the heap are on its pages. -/
lemma pageOf_mem_heapPages {addr : ℕ} (h : addr ∈ Set.Ico heapStart (heapStart + heapSize)) :
    pageOf addr ∈ heapPages := by
  obtain ⟨hle, hlt⟩ := h
  rw [heapPages, mem_stepBy (by omega)]
  simp only [pageOf, heapStart, heapSize] at hle hlt ⊢
  exact ⟨by omega, by omega, by omega⟩

/-! ### `init_heap` -/

section InitHeap

variable {api : PhysFrames} (M : Mapper api)

/-- The loop of `init_heap`. -/
def mapPages : List ℕ → M.State → BootInfoFrameAllocator →
    Except Fault (Except MapToError Unit × M.State × BootInfoFrameAllocator)
  | [], s, a => .ok (.ok (), s, a)
  | page :: pages, s, a => do
      match ← a.allocateFrame api with
      | (none, a) => return (.error .frameAllocationFailed, s, a)
      | (some frame, a) =>
          match ← M.mapTo s page frame a with
          | (.error e, s, a) => return (.error e, s, a)
          | (.ok (), s, a) => mapPages pages s a

/-- `init_heap`.  The last component is the memory that `ALLOCATOR` gets, if it gets any: its start
and its size. -/
def initHeap (s : M.State) (a : BootInfoFrameAllocator) :
    Except Fault (Except MapToError Unit × M.State × BootInfoFrameAllocator × Option (ℕ × ℕ)) := do
  match ← mapPages M heapPages s a with
  | (.error e, s, a) => return (.error e, s, a, none)
  | (.ok (), s, a) => return (.ok (), s, a, some (heapStart, heapSize))

variable {M} {memoryMap : List MemoryRegion} {frames : List api.PhysFrame} {s s' : M.State}
  {page : ℕ} {pages : List ℕ} {next next' : ℕ}

/-- From `s` to `s'` the pages were mapped, each to a frame of its own out of those with the numbers
from `next` up to `next'`; what of these frames became page tables belongs to none of the pages. -/
structure Backed (frames : List api.PhysFrame) (pages : List ℕ) (s s' : M.State)
    (next next' : ℕ) (number : ℕ → ℕ) : Prop where
  within : ∀ page ∈ pages, next ≤ number page ∧ number page < next'
  mapped : ∀ page ∈ pages, ∃ frame, frames[number page]? = some frame ∧
    M.translatePage s' page = some frame
  injective : ∀ page ∈ pages, ∀ other ∈ pages, number page = number other → page = other
  others : ∀ page, page ∉ pages → M.translatePage s' page = M.translatePage s page
  tables : ∀ f, M.Table s' f → M.Table s f ∨
    ∃ i, next ≤ i ∧ i < next' ∧ frames[i]? = some f ∧ ∀ page ∈ pages, number page ≠ i

lemma backed_nil (frames : List api.PhysFrame) (s : M.State) (next : ℕ) (number : ℕ → ℕ) :
    Backed frames [] s s next next number where
  within _ h := absurd h List.not_mem_nil
  mapped _ h := absurd h List.not_mem_nil
  injective _ h := absurd h List.not_mem_nil
  others _ _ := rfl
  tables _ h := Or.inl h

/-- What holds of the page in front and its number, and of the other pages and theirs. -/
lemma forall_mem_cons_update {P : ℕ → ℕ → Prop} {number : ℕ → ℕ} (hpage : page ∉ pages) :
    (∀ p ∈ page :: pages, P p (Function.update number page next p)) ↔
      P page next ∧ ∀ p ∈ pages, P p (number p) := by
  rw [List.forall_mem_cons, Function.update_self]
  refine and_congr_right fun _ => forall₂_congr fun p hp => ?_
  rw [Function.update_of_ne (ne_of_mem_of_not_mem hp hpage)]

/-- One more page in front: it gets the frame `next`, and its tables get the `n` frames behind
it. -/
lemma Backed.cons {s₁ : M.State} {n : ℕ} {number : ℕ → ℕ} {frame : api.PhysFrame}
    (h : Backed frames pages s₁ s' (next + 1 + n) next' number) (hpage : page ∉ pages)
    (hle : next + 1 + n ≤ next') (hframe : frames[next]? = some frame)
    (htranslate : M.translatePage s₁ = Function.update (M.translatePage s) page (some frame))
    (htables : ∀ f, M.Table s₁ f → M.Table s f ∨
      ∃ i, next + 1 ≤ i ∧ i < next + 1 + n ∧ frames[i]? = some f) :
    Backed frames (page :: pages) s s' next next' (Function.update number page next) := by
  -- the numbers of the later pages are behind those that the first page has used up
  have hlater : ∀ i < next + 1 + n, ∀ p ∈ pages, number p ≠ i := by
    intro i hi p hp
    have hwithin := h.within p hp
    omega
  refine ⟨?_, ?_, ?_, fun other hother => ?_, fun f hf => ?_⟩
  · refine (forall_mem_cons_update (P := fun _ i => next ≤ i ∧ i < next') hpage).mpr
      ⟨by omega, fun p hp => ?_⟩
    have hwithin := h.within p hp
    omega
  · refine (forall_mem_cons_update (P := fun p i => ∃ frame, frames[i]? = some frame ∧
      M.translatePage s' p = some frame) hpage).mpr ⟨⟨frame, hframe, ?_⟩, h.mapped⟩
    rw [h.others page hpage, htranslate, Function.update_self]
  · refine (forall_mem_cons_update (P := fun p i => ∀ q ∈ page :: pages,
      i = Function.update number page next q → p = q) hpage).mpr ⟨?_, fun p hp => ?_⟩
    · exact (forall_mem_cons_update (P := fun q i => next = i → page = q) hpage).mpr
        ⟨fun _ => rfl, fun q hq heq => absurd heq.symm (hlater next (by omega) q hq)⟩
    · exact (forall_mem_cons_update (P := fun q i => number p = i → p = q) hpage).mpr
        ⟨fun heq => absurd heq (hlater next (by omega) p hp), h.injective p hp⟩
  · rw [List.mem_cons, not_or] at hother
    rw [h.others other hother.2, htranslate, Function.update_of_ne hother.1]
  · have hfree {i : ℕ} (hi : next + 1 ≤ i) (hrest : ∀ p ∈ pages, number p ≠ i) :
        ∀ p ∈ page :: pages, Function.update number page next p ≠ i :=
      (forall_mem_cons_update (P := fun _ k => k ≠ i) hpage).mpr ⟨by omega, hrest⟩
    rcases h.tables f hf with hbefore | ⟨i, hlow, hhigh, hi, hrest⟩
    · refine (htables f hbefore).imp_right ?_
      rintro ⟨i, hlow, hhigh, hi⟩
      exact ⟨i, by omega, by omega, hi, hfree hlow (hlater i hhigh)⟩
    · exact Or.inr ⟨i, by omega, hhigh, hi, hfree (by omega) hrest⟩

/-- What a run of the loop has done. -/
structure MapPagesSpec (frames : List api.PhysFrame) (pages : List ℕ) (s s' : M.State)
    (next next' : ℕ) (result : Except MapToError Unit) : Prop where
  calls : next ≤ next' ∧ next' ≤ next + 4 * pages.length
  backed : result = .ok () → ∃ number, Backed frames pages s s' next next' number
  enough : result = .ok () → pages ≠ [] → next + pages.length ≤ frames.length
  room : (∀ page ∈ pages, M.translatePage s page = none ∧ ¬ M.HugeParent s page) →
    next + 4 * pages.length ≤ frames.length → result = .ok ()

/-- The first page cannot be mapped: no frame was left for it or for its tables, or the mapper has
another reason. -/
lemma mapPagesSpec_error {e : MapToError} {n : ℕ} (hn : n ≤ 3)
    (hfail : M.translatePage s page = none ∧ ¬ M.HugeParent s page → frames.length < next + 1 + n) :
    MapPagesSpec frames (page :: pages) s s' next (next + 1 + n) (.error e) := by
  refine ⟨⟨by omega, by rw [List.length_cons]; omega⟩, fun hok => absurd hok (by simp),
    fun hok => absurd hok (by simp), fun hfree hroom => ?_⟩
  have hshort := hfail (hfree page List.mem_cons_self)
  rw [List.length_cons] at hroom
  omega

/-- The first page was mapped, and the loop went on with the others. -/
lemma MapPagesSpec.cons {s₁ : M.State} {n : ℕ} {frame : api.PhysFrame}
    {result : Except MapToError Unit}
    (h : MapPagesSpec frames pages s₁ s' (next + 1 + n) next' result) (hn : n ≤ 3)
    (hpage : page ∉ pages) (hframe : frames[next]? = some frame)
    (htranslate : M.translatePage s₁ = Function.update (M.translatePage s) page (some frame))
    (hhuge : ∀ other, M.HugeParent s₁ other → M.HugeParent s other)
    (htables : ∀ f, M.Table s₁ f → M.Table s f ∨
      ∃ i, next + 1 ≤ i ∧ i < next + 1 + n ∧ frames[i]? = some f) :
    MapPagesSpec frames (page :: pages) s s' next next' result := by
  have hcalls := h.calls
  refine ⟨⟨by omega, by rw [List.length_cons]; omega⟩, fun hok => ?_, fun hok _ => ?_,
    fun hfree hroom => h.room (fun other hother => ?_) ?_⟩
  · obtain ⟨number, hbacked⟩ := h.backed hok
    exact ⟨_, hbacked.cons hpage hcalls.1 hframe htranslate htables⟩
  · have hlt := (List.getElem?_eq_some_iff.mp hframe).1
    rw [List.length_cons]
    rcases eq_or_ne pages [] with rfl | hne
    · rw [List.length_nil]
      omega
    · have henough := h.enough hok hne
      omega
  · obtain ⟨hunmapped, hsmall⟩ := hfree other (List.mem_cons_of_mem page hother)
    have hne : other ≠ page := ne_of_mem_of_not_mem hother hpage
    rw [htranslate, Function.update_of_ne hne]
    exact ⟨hunmapped, fun h => hsmall (hhuge other h)⟩
  · rw [List.length_cons] at hroom
    omega

/-- A call of `map_to`, with the numbers of the frames that it takes. -/
lemma mapTo_cases (hframes : (frameAddresses memoryMap).map api.containingAddress = frames.map .ok)
    (hnext : next + 3 < 2 ^ 64) (s : M.State) (page : ℕ) (frame : api.PhysFrame) :
    ∃ result s₁, ∃ n ≤ 3,
      M.mapTo s page frame ⟨memoryMap, next⟩ = .ok (result, s₁, ⟨memoryMap, next + n⟩) ∧
      (∀ f, M.Table s₁ f → M.Table s f ∨ ∃ i, next ≤ i ∧ i < next + n ∧ frames[i]? = some f) ∧
      (result = .error .frameAllocationFailed → frames.length < next + n) := by
  obtain ⟨⟨result, s₁, a₁⟩, hmap⟩ := M.mapTo_returns s page frame ⟨memoryMap, next⟩
    fun n hn => ⟨_, run_allocateFrame hframes (by omega)⟩
  obtain ⟨n, hn, outs, hrun, htables, hfail⟩ := M.mapTo_frames hmap
  rw [run_allocateFrame hframes (by omega), Except.ok.injEq, Prod.mk.injEq] at hrun
  obtain ⟨rfl, rfl⟩ := hrun
  refine ⟨result, s₁, n, hn, hmap, fun f hf => (htables f hf).imp_right fun hmem => ?_,
    fun hresult => ?_⟩
  · obtain ⟨i, hi, heq⟩ := List.mem_map.mp hmem
    rw [List.mem_range'_1] at hi
    exact ⟨i, hi.1, hi.2, heq⟩
  · obtain ⟨i, hi, heq⟩ := List.mem_map.mp (hfail hresult)
    rw [List.mem_range'_1] at hi
    rw [List.getElem?_eq_none_iff] at heq
    omega

/-- **The loop.** -/
lemma mapPages_spec
    (hframes : (frameAddresses memoryMap).map api.containingAddress = frames.map .ok)
    (hnodup : pages.Nodup) (hnext : next + 4 * pages.length < 2 ^ 64) (s : M.State) :
    ∃ result s' next', mapPages M pages s ⟨memoryMap, next⟩ =
        .ok (result, s', ⟨memoryMap, next'⟩) ∧
      MapPagesSpec frames pages s s' next next' result := by
  induction pages generalizing s next with
  | nil =>
      exact ⟨.ok (), s, next, rfl, ⟨le_rfl, by simp⟩, fun _ => ⟨id, backed_nil frames s next id⟩,
        fun _ hne => absurd rfl hne, fun _ _ => rfl⟩
  | cons page pages ih =>
      rw [List.length_cons] at hnext
      obtain ⟨hpage, hnodup⟩ := List.nodup_cons.mp hnodup
      have halloc := allocateFrame_eq hframes (show next + 1 < 2 ^ 64 by omega)
      rcases hframe : frames[next]? with _ | frame
      · -- no frame is left for the page
        have hlen := List.getElem?_eq_none_iff.mp hframe
        refine ⟨.error .frameAllocationFailed, s, next + 1, ?_,
          mapPagesSpec_error (Nat.zero_le 3) fun _ => by omega⟩
        rw [mapPages, halloc, hframe]
        rfl
      · obtain ⟨result, s₁, n, hn, hmap, htables, hfail⟩ :=
          mapTo_cases hframes (show next + 1 + 3 < 2 ^ 64 by omega) s page frame
        rcases result with e | ⟨⟨⟩⟩
        · refine ⟨.error e, s₁, next + 1 + n, ?_, mapPagesSpec_error hn fun hfree => ?_⟩
          · rw [mapPages, halloc, hframe, ok_bind]
            simp only [hmap, ok_bind]
            rfl
          · -- a free page is refused only if there is no frame for its tables
            rcases M.mapTo_error hmap with rfl | hhuge | hmapped
            · exact hfail rfl
            · exact absurd hhuge hfree.2
            · rw [hfree.1] at hmapped
              exact absurd hmapped (by simp)
        · obtain ⟨result, s', next', hrest, hspec⟩ :=
            ih hnodup (show next + 1 + n + 4 * pages.length < 2 ^ 64 by omega) s₁
          obtain ⟨htranslate, hhuge⟩ := M.mapTo_ok hmap
          refine ⟨result, s', next', ?_, hspec.cons hn hpage hframe htranslate hhuge htables⟩
          rw [mapPages, halloc, hframe, ok_bind]
          simp only [hmap, ok_bind]
          exact hrest

/-- What the loop has done to one of its pages, if the frames are different ones. -/
lemma Backed.frame {number : ℕ → ℕ} (h : Backed frames pages s s' next next' number)
    (hnodup : frames.Nodup) (hpage : page ∈ pages) :
    ∃ frame ∈ frames, M.translatePage s' page = some frame ∧
      (∀ other ∈ pages, M.translatePage s' other = some frame → other = page) ∧
      (M.Table s' frame → M.Table s frame) := by
  obtain ⟨frame, hframe, htranslate⟩ := h.mapped page hpage
  have hlt := (List.getElem?_eq_some_iff.mp hframe).1
  refine ⟨frame, List.mem_of_getElem? hframe, htranslate, fun other hother heq => ?_,
    fun htable => ?_⟩
  · obtain ⟨frame', hframe', htranslate'⟩ := h.mapped other hother
    obtain rfl := Option.some.inj (htranslate'.symm.trans heq)
    have hnumber := (List.getElem?_inj hlt hnodup).mp (hframe.trans hframe'.symm)
    exact h.injective other hother page hpage hnumber.symm
  · rcases h.tables frame htable with hbefore | ⟨i, -, -, hi, hfree⟩
    · exact hbefore
    · exact absurd ((List.getElem?_inj hlt hnodup).mp (hframe.trans hi.symm)) (hfree page hpage)

end InitHeap

namespace TableEach

/-- The pages that are mapped, and the frames with tables. -/
abbrev State := (ℕ → Option ℕ) × List ℕ

/-- Every page is put into a table of its own. -/
def mapTo (s : State) (page frame : ℕ) (a : BootInfoFrameAllocator) :
    Except Fault (Except MapToError Unit × State × BootInfoFrameAllocator) := do
  match ← a.allocateFrame pageFrames with
  | (none, a) => return (.error .frameAllocationFailed, s, a)
  | (some table, a) => return (.ok (), (Function.update s.1 page (some frame), table :: s.2), a)

variable {s s' : State} {page frame : ℕ} {a a' : BootInfoFrameAllocator}
  {result : Except MapToError Unit}

lemma mapTo_cases (h : mapTo s page frame a = .ok (result, s', a')) :
    (a.allocateFrame pageFrames = .ok (none, a') ∧ result = .error .frameAllocationFailed ∧
      s' = s) ∨
    ∃ table, a.allocateFrame pageFrames = .ok (some table, a') ∧ result = .ok () ∧
      s' = (Function.update s.1 page (some frame), table :: s.2) := by
  obtain ⟨⟨o, a₁⟩, halloc, h⟩ := bind_eq_ok.mp h
  rw [halloc]
  cases o with
  | none =>
      obtain ⟨rfl, hrest⟩ := Prod.mk.inj (Except.ok.inj h)
      obtain ⟨rfl, rfl⟩ := Prod.mk.inj hrest
      exact Or.inl ⟨rfl, rfl, rfl⟩
  | some table =>
      obtain ⟨rfl, hrest⟩ := Prod.mk.inj (Except.ok.inj h)
      obtain ⟨rfl, rfl⟩ := Prod.mk.inj hrest
      exact Or.inr ⟨table, rfl, rfl, rfl⟩

lemma run_one {o : Option ℕ} (h : a.allocateFrame pageFrames = .ok (o, a')) :
    (machine pageFrames).run a (List.replicate 1 ()) = .ok ([o], a') :=
  (Machine.run_cons_eq_ok _).mpr ⟨o, a', [], h, rfl, rfl⟩

lemma mapTo_returns (s : State) (page frame : ℕ) (a : BootInfoFrameAllocator)
    (h : ∀ n ≤ 3, ∃ r, (machine pageFrames).run a (List.replicate n ()) = .ok r) :
    ∃ r, mapTo s page frame a = .ok r := by
  obtain ⟨⟨outs, a'⟩, hrun⟩ := h 1 (by omega)
  obtain ⟨o, a₁, _, halloc, -⟩ := (Machine.run_cons_eq_ok _).mp hrun
  have hcall : a.allocateFrame pageFrames = .ok (o, a₁) := halloc
  rw [mapTo, hcall]
  cases o with
  | none => exact ⟨_, rfl⟩
  | some table => exact ⟨_, rfl⟩

lemma mapTo_frames (h : mapTo s page frame a = .ok (result, s', a')) :
    ∃ n ≤ 3, ∃ outs, (machine pageFrames).run a (List.replicate n ()) = .ok (outs, a') ∧
      (∀ f : ℕ, f ∈ s'.2 → f ∈ s.2 ∨ some f ∈ outs) ∧
      (result = .error .frameAllocationFailed → none ∈ outs) := by
  rcases mapTo_cases h with ⟨halloc, rfl, rfl⟩ | ⟨table, halloc, rfl, rfl⟩
  · exact ⟨1, by omega, _, run_one halloc, fun f hf => Or.inl hf,
      fun _ => List.mem_singleton_self _⟩
  · refine ⟨1, by omega, _, run_one halloc, fun f hf => ?_, fun herr => absurd herr (by simp)⟩
    rcases List.mem_cons.mp hf with rfl | hf
    · exact Or.inr (List.mem_singleton_self _)
    · exact Or.inl hf

lemma mapTo_ok (h : mapTo s page frame a = .ok (.ok (), s', a')) :
    s'.1 = Function.update s.1 page (some frame) := by
  rcases mapTo_cases h with ⟨-, hresult, -⟩ | ⟨table, -, -, rfl⟩
  · exact absurd hresult (by simp)
  · rfl

lemma mapTo_error {e : MapToError} (h : mapTo s page frame a = .ok (.error e, s', a')) :
    e = .frameAllocationFailed := by
  rcases mapTo_cases h with ⟨-, hresult, -⟩ | ⟨table, -, hresult, -⟩
  · exact Except.error.inj hresult
  · exact absurd hresult (by simp)

def mapper : Mapper pageFrames where
  State := State
  translatePage s := s.1
  HugeParent _ _ := False
  Table s f := f ∈ s.2
  mapTo := mapTo
  mapTo_returns := mapTo_returns
  mapTo_frames := mapTo_frames
  mapTo_ok h := ⟨mapTo_ok h, fun _ => id⟩
  mapTo_error h := Or.inl (mapTo_error h)

end TableEach

/-- 32 MiB of usable memory. -/
def largeMap : List MemoryRegion := [⟨0x100000, 0x2100000, .usable⟩]

lemma wellFormed_largeMap : WellFormed largeMap where
  aligned := by decide
  disjoint := by
    have husable : (largeMap.filter fun r => r.regionType = .usable) = largeMap := by decide
    rw [husable, largeMap]
    exact List.pairwise_singleton _ _
  physical := by decide

lemma length_frameAddresses_largeMap : (frameAddresses largeMap).length = 8192 := by
  have husable : (largeMap.filter fun r => r.regionType = .usable) = largeMap := by decide
  rw [frameAddresses, husable, largeMap, List.flatMap_singleton, stepBy, List.length_map,
    List.length_range]
  rfl

end SilOS.Memory
