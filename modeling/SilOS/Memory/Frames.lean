/-
# The frame allocator

`BootInfoFrameAllocator` hands out the frames of the usable regions of the boot memory map.  Each
call builds the iterator over all usable frames again and takes the element whose number it has
counted up to.  So the calls return the frames of the usable regions one after the other, and then
nothing (`run_allocateFrame`).

Two things end this.  `PhysAddr::new` panics at an address with one of the bits 52 to 63 set, and
the counter is a `usize`, which overflows at the call with the number `2 ^ 64`.
-/
import SilOS.Lib.Checked
import SilOS.Lib.Machine

namespace SilOS.Memory

open Lib

/-! ### The memory map -/

/-- The type of a memory region.  The kernel tells usable regions from all others. -/
inductive MemoryRegionType where
  | usable
  | other (kind : ℕ)
deriving DecidableEq, Repr

/-- A region of the boot memory map: `range.start_addr()`, `range.end_addr()` and `region_type`. -/
structure MemoryRegion where
  startAddr : ℕ
  endAddr : ℕ
  regionType : MemoryRegionType
deriving DecidableEq, Repr

/-- What the allocator uses of `PhysFrame` and `PhysAddr`, with their documented behaviour. -/
structure PhysFrames where
  /-- `PhysFrame<Size4KiB>` -/
  PhysFrame : Type
  /-- `PhysFrame::start_address` -/
  startAddress : PhysFrame → ℕ
  /-- `PhysFrame::containing_address(PhysAddr::new(addr))` -/
  containingAddress : ℕ → Except Fault PhysFrame
  containingAddress_ok : ∀ addr < 2 ^ 52, ∃ frame, containingAddress addr = .ok frame
  containingAddress_panic : ∀ addr, 2 ^ 52 ≤ addr → containingAddress addr = .error .panic
  startAddress_eq : ∀ addr frame, containingAddress addr = .ok frame →
    startAddress frame = addr / 4096 * 4096

/-- `(start..stop).step_by(step)` -/
def stepBy (start stop step : ℕ) : List ℕ :=
  (List.range ((stop - start + step - 1) / step)).map fun i => start + i * step

/-- `Iterator::nth` of an iterator whose elements are computed one by one. -/
def nth {α : Type} : List (Except Fault α) → ℕ → Except Fault (Option α)
  | [], _ => .ok none
  | x :: _, 0 => x.map some
  | x :: xs, n + 1 => do
      let _ ← x
      nth xs n

/-! ### The allocator -/

/-- `BootInfoFrameAllocator` -/
structure BootInfoFrameAllocator where
  memoryMap : List MemoryRegion
  next : ℕ

namespace BootInfoFrameAllocator

/-- `BootInfoFrameAllocator::init` -/
def init (memoryMap : List MemoryRegion) : BootInfoFrameAllocator := ⟨memoryMap, 0⟩

/-- The start addresses of `usable_frames`. -/
def frameAddresses (memoryMap : List MemoryRegion) : List ℕ :=
  let usableRegions := memoryMap.filter fun r => r.regionType = .usable
  usableRegions.flatMap fun r => stepBy r.startAddr r.endAddr 4096

/-- `usable_frames` -/
def usableFrames (api : PhysFrames) (a : BootInfoFrameAllocator) :
    List (Except Fault api.PhysFrame) :=
  (frameAddresses a.memoryMap).map api.containingAddress

/-- `allocate_frame` -/
def allocateFrame (api : PhysFrames) (a : BootInfoFrameAllocator) :
    Except Fault (Option api.PhysFrame × BootInfoFrameAllocator) := do
  let frame ← nth (a.usableFrames api) a.next
  let next ← addW 64 a.next 1
  return (frame, { a with next := next })

/-- The allocator as a machine: the only input is a call. -/
def machine (api : PhysFrames) :
    Machine BootInfoFrameAllocator Unit (Option api.PhysFrame) Fault where
  step a _ := a.allocateFrame api

end BootInfoFrameAllocator

/-! ### Strided ranges -/

section StepBy

variable {start stop step x : ℕ}

lemma mem_stepBy (hstep : 0 < step) :
    x ∈ stepBy start stop step ↔ start ≤ x ∧ x < stop ∧ step ∣ x - start := by
  simp only [stepBy, List.mem_map, List.mem_range, Nat.lt_div_iff_mul_lt hstep]
  constructor
  · rintro ⟨i, hi, rfl⟩
    exact ⟨Nat.le_add_right _ _, by omega, by simp⟩
  · rintro ⟨hle, hlt, i, hi⟩
    have hcomm : i * step = step * i := Nat.mul_comm i step
    exact ⟨i, by omega, by omega⟩

lemma nodup_stepBy (hstep : 0 < step) : (stepBy start stop step).Nodup := by
  apply List.Nodup.map _ List.nodup_range
  intro i j hij
  exact Nat.eq_of_mul_eq_mul_right hstep (Nat.add_left_cancel hij)

end StepBy

/-! ### The frames in order -/

/-- Reading an iterator whose elements can all be computed. -/
lemma nth_map_ok {α : Type} (l : List α) (n : ℕ) : nth (l.map .ok) n = .ok l[n]? := by
  induction l generalizing n with
  | nil => rfl
  | cons x l ih =>
      cases n with
      | zero => rfl
      | succ n => exact ih n

/-- Addresses below `2 ^ 52` are addresses of frames. -/
lemma exists_frames (api : PhysFrames) {addrs : List ℕ} (haddrs : ∀ addr ∈ addrs, addr < 2 ^ 52) :
    ∃ frames : List api.PhysFrame, addrs.map api.containingAddress = frames.map .ok ∧
      frames.map api.startAddress = addrs.map fun addr => addr / 4096 * 4096 := by
  induction addrs with
  | nil => exact ⟨[], rfl, rfl⟩
  | cons addr addrs ih =>
      obtain ⟨frame, hframe⟩ := api.containingAddress_ok addr (haddrs addr (by simp))
      obtain ⟨frames, hok, hstart⟩ := ih fun x hx => haddrs x (by simp [hx])
      refine ⟨frame :: frames, ?_, ?_⟩
      · rw [List.map_cons, List.map_cons, hframe, hok]
      · rw [List.map_cons, List.map_cons, api.startAddress_eq addr frame hframe, hstart]

namespace BootInfoFrameAllocator

variable {api : PhysFrames} {memoryMap : List MemoryRegion} {frames : List api.PhysFrame}

/-- **One call** returns the frame with the number of the call. -/
lemma allocateFrame_eq
    (hframes : (frameAddresses memoryMap).map api.containingAddress = frames.map .ok)
    {next : ℕ} (hnext : next + 1 < 2 ^ 64) :
    allocateFrame api ⟨memoryMap, next⟩ = .ok (frames[next]?, ⟨memoryMap, next + 1⟩) := by
  rw [allocateFrame, usableFrames, hframes, nth_map_ok, ok_bind, addW_eq_ok hnext, ok_bind]
  rfl

/-- **Any number of calls.** -/
lemma run_allocateFrame
    (hframes : (frameAddresses memoryMap).map api.containingAddress = frames.map .ok)
    {n next : ℕ} (hn : next + n < 2 ^ 64) :
    (machine api).run ⟨memoryMap, next⟩ (List.replicate n ()) =
      .ok ((List.range' next n).map (frames[·]?), ⟨memoryMap, next + n⟩) := by
  induction n generalizing next with
  | zero => rfl
  | succ n ih =>
      have hstep : (machine api).step ⟨memoryMap, next⟩ () =
          .ok (frames[next]?, ⟨memoryMap, next + 1⟩) := allocateFrame_eq hframes (by omega)
      rw [List.replicate_succ, (machine api).run_cons_of_step hstep, ih (by omega),
        List.range'_succ, List.map_cons, Nat.add_assoc, Nat.add_comm 1 n]

/-! ### The frames of the usable regions -/

/-- The address of a frame that lies in one usable region. -/
def UsableFrame (memoryMap : List MemoryRegion) (addr : ℕ) : Prop :=
  4096 ∣ addr ∧ ∃ r ∈ memoryMap, r.regionType = .usable ∧ r.startAddr ≤ addr ∧
    addr + 4096 ≤ r.endAddr

/-- The usable regions are page-aligned and pairwise disjoint, and their addresses are physical
ones. -/
structure WellFormed (memoryMap : List MemoryRegion) : Prop where
  aligned : ∀ r ∈ memoryMap, r.regionType = .usable → 4096 ∣ r.startAddr ∧ 4096 ∣ r.endAddr
  disjoint : (memoryMap.filter fun r => r.regionType = .usable).Pairwise fun r r' =>
    Disjoint (Set.Ico r.startAddr r.endAddr) (Set.Ico r'.startAddr r'.endAddr)
  physical : ∀ r ∈ memoryMap, r.regionType = .usable → r.endAddr ≤ 2 ^ 52

lemma mem_frameAddresses (h : WellFormed memoryMap) {addr : ℕ} :
    addr ∈ frameAddresses memoryMap ↔ UsableFrame memoryMap addr := by
  simp only [frameAddresses, List.mem_flatMap, List.mem_filter, decide_eq_true_eq, and_assoc,
    mem_stepBy (by omega : 0 < 4096)]
  constructor
  · rintro ⟨r, hr, husable, hle, hlt, hdvd⟩
    obtain ⟨hstart, hend⟩ := h.aligned r hr husable
    exact ⟨by omega, r, hr, husable, hle, by omega⟩
  · rintro ⟨hdvd, r, hr, husable, hle, hlt⟩
    obtain ⟨hstart, hend⟩ := h.aligned r hr husable
    exact ⟨r, hr, husable, hle, by omega, by omega⟩

lemma nodup_frameAddresses (h : WellFormed memoryMap) : (frameAddresses memoryMap).Nodup := by
  refine List.nodup_flatMap.mpr ⟨fun r _ => nodup_stepBy (by omega), ?_⟩
  refine h.disjoint.imp fun {r r'} hdisjoint addr haddr haddr' => ?_
  obtain ⟨hle, hlt, -⟩ := (mem_stepBy (by omega)).mp haddr
  obtain ⟨hle', hlt', -⟩ := (mem_stepBy (by omega)).mp haddr'
  exact Set.disjoint_left.mp hdisjoint ⟨hle, hlt⟩ ⟨hle', hlt'⟩

/-- There are at most as many frames as physical memory has. -/
lemma length_frameAddresses_le (h : WellFormed memoryMap) :
    (frameAddresses memoryMap).length ≤ 2 ^ 40 := by
  have hnd : ((frameAddresses memoryMap).map (· / 4096)).Nodup := by
    refine (nodup_frameAddresses h).map_on fun addr haddr addr' haddr' heq => ?_
    obtain ⟨hdvd, -⟩ := (mem_frameAddresses h).mp haddr
    obtain ⟨hdvd', -⟩ := (mem_frameAddresses h).mp haddr'
    omega
  have hsub : (frameAddresses memoryMap).map (· / 4096) ⊆ List.range (2 ^ 40) := by
    intro n hn
    obtain ⟨addr, haddr, rfl⟩ := List.mem_map.mp hn
    obtain ⟨-, r, hr, husable, -, hend⟩ := (mem_frameAddresses h).mp haddr
    have hphysical := h.physical r hr husable
    rw [List.mem_range]
    omega
  have hle := (hnd.subperm hsub).length_le
  rwa [List.length_map, List.length_range] at hle

/-- The usable frames, in the order in which they are handed out. -/
lemma exists_usableFrames (api : PhysFrames) (h : WellFormed memoryMap) :
    ∃ frames : List api.PhysFrame,
      (frameAddresses memoryMap).map api.containingAddress = frames.map .ok ∧
      frames.map api.startAddress = frameAddresses memoryMap := by
  have hphysical : ∀ addr ∈ frameAddresses memoryMap, addr < 2 ^ 52 := by
    intro addr haddr
    obtain ⟨-, r, hr, husable, -, hend⟩ := (mem_frameAddresses h).mp haddr
    have := h.physical r hr husable
    omega
  obtain ⟨frames, hframes, hstart⟩ := exists_frames api hphysical
  -- the addresses are multiples of 4096, so every frame starts at its address
  have hself : ∀ addr ∈ frameAddresses memoryMap, addr / 4096 * 4096 = id addr := by
    intro addr haddr
    exact Nat.div_mul_cancel ((mem_frameAddresses h).mp haddr).1
  refine ⟨frames, hframes, ?_⟩
  rw [hstart, List.map_congr_left hself, List.map_id]

/-- **Frame allocation.**  For every boot memory map whose usable regions are page-aligned, pairwise
disjoint and below `2 ^ 52`, there is a list of different frames, those that lie in usable regions
and no others, such that the first `2 ^ 64 - 1` calls all return: first the frames of the list, each
once and in order, and then nothing. -/
theorem allocate_frame_exact (api : PhysFrames) {memoryMap : List MemoryRegion}
    (h : WellFormed memoryMap) :
    ∃ frames : List api.PhysFrame,
      (frames.map api.startAddress).Nodup ∧
      (∀ addr, addr ∈ frames.map api.startAddress ↔ UsableFrame memoryMap addr) ∧
      frames.length ≤ 2 ^ 40 ∧
      ∀ n < 2 ^ 64, ∃ a, (machine api).run (init memoryMap) (List.replicate n ()) =
        .ok ((List.range n).map (frames[·]?), a) := by
  obtain ⟨frames, hframes, haligned⟩ := exists_usableFrames api h
  refine ⟨frames, ?_, ?_, ?_, fun n hn => ?_⟩
  · rw [haligned]
    exact nodup_frameAddresses h
  · intro addr
    rw [haligned]
    exact mem_frameAddresses h
  · have hlen := congrArg List.length haligned
    rw [List.length_map] at hlen
    rw [hlen]
    exact length_frameAddresses_le h
  · rw [List.range_eq_range', init, run_allocateFrame hframes (by omega)]
    exact ⟨_, rfl⟩

/-- Frames as their start addresses. -/
def pageFrames : PhysFrames where
  PhysFrame := ℕ
  startAddress := id
  containingAddress addr := if addr < 2 ^ 52 then .ok (addr / 4096 * 4096) else .error .panic
  containingAddress_ok addr haddr := ⟨_, if_pos haddr⟩
  containingAddress_panic addr haddr := if_neg (not_lt.mpr haddr)
  startAddress_eq addr frame hframe := by
    split_ifs at hframe
    exact (Except.ok.inj hframe).symm

/-- Two usable regions around a region that is not. -/
def smallMap : List MemoryRegion :=
  [⟨0x1000, 0x3000, .usable⟩, ⟨0x3000, 0x5000, .other 0⟩, ⟨0x5000, 0x6000, .usable⟩]

lemma wellFormed_smallMap : WellFormed smallMap where
  aligned := by decide
  disjoint := by
    have husable : (smallMap.filter fun r => r.regionType = .usable) =
        [⟨0x1000, 0x3000, .usable⟩, ⟨0x5000, 0x6000, .usable⟩] := by decide
    rw [husable, List.pairwise_pair]
    refine Set.disjoint_left.mpr fun addr haddr haddr' => ?_
    have h1 := haddr.2
    have h2 := haddr'.1
    simp only at h1 h2
    omega
  physical := by decide

/-- The frames of that map. -/
theorem allocate_frame_exact_smallMap :
    ∃ frames : List ℕ, (frames.map id).Nodup ∧
      (∀ addr, addr ∈ frames.map id ↔ UsableFrame smallMap addr) ∧ frames.length ≤ 2 ^ 40 ∧
      ∀ n < 2 ^ 64, ∃ a, (machine pageFrames).run (init smallMap) (List.replicate n ()) =
        .ok ((List.range n).map (frames[·]?), a) :=
  allocate_frame_exact pageFrames wellFormed_smallMap

/-- The first five calls. -/
example : (machine pageFrames).run (init smallMap) (List.replicate 5 ()) =
    .ok ([some (0x1000 : ℕ), some (0x2000 : ℕ), some (0x5000 : ℕ), none, none],
      ⟨smallMap, 5⟩) := by
  rfl

/-- **Where the calls stop.**  A usable region at `2 ^ 52` is page-aligned, and the first call
panics.  On any map, here the one without regions, the call with the number `2 ^ 64` panics. -/
theorem allocate_frame_panics :
    UsableFrame [⟨2 ^ 52, 2 ^ 52 + 4096, .usable⟩] (2 ^ 52) ∧
      allocateFrame pageFrames (init [⟨2 ^ 52, 2 ^ 52 + 4096, .usable⟩]) = .error .panic ∧
      (machine pageFrames).run (init []) (List.replicate (2 ^ 64) ()) = .error .panic := by
  refine ⟨⟨by norm_num, _, List.mem_singleton_self _, rfl, le_rfl, le_rfl⟩, ?_, ?_⟩
  · have haddresses : frameAddresses [⟨2 ^ 52, 2 ^ 52 + 4096, .usable⟩] = [2 ^ 52] := by decide
    rw [allocateFrame, usableFrames, init, haddresses, List.map_singleton,
      pageFrames.containingAddress_panic _ le_rfl]
    rfl
  · have hnone : (frameAddresses []).map pageFrames.containingAddress =
        ([] : List pageFrames.PhysFrame).map .ok := rfl
    have hrun : (machine pageFrames).run (init []) (List.replicate (2 ^ 64 - 1) ()) = _ :=
      run_allocateFrame hnone (by omega)
    have hcount : 2 ^ 64 = (2 ^ 64 - 1) + 1 := by omega
    rw [hcount, List.replicate_add, (machine pageFrames).run_append hrun]
    rfl

end BootInfoFrameAllocator

end SilOS.Memory
