/-
What the heap operations do to the shadow map, byte by byte, whatever the allocator answers: nothing is assumed of it but
that it keeps off the shadow bytes. The map holds the shadow bytes of the blocks in question here.

- `Redzones.marking`: the shadow byte of each address of a block that is handed out.
- `Answered`: how an operation that asks for a block goes on with the answer, be it a block or a refusal.
- `shadow_effects`: the effect of the three operations.
-/
import Mathlib.Tactic
import AddressSanitizer.Heap.Scripted
import AddressSanitizer.Proofs.RedzoneContract

namespace AddressSanitizer

namespace ShadowMap

variable {s : ShadowMap} {lo hi : Nat} {value : Address → UInt8} {memory memory' memory'' : Memory}

/-- What happens before to other bytes than the shadow bytes does not matter. -/
theorem Writes.of_sameAt (h : s.Writes lo hi value memory' memory'') (hsame : memory.SameAt s.bytes memory') :
    s.Writes lo hi value memory memory'' where
  inside := h.inside
  outside shadow hbacked hout := by
    have hbytes : (s.space, shadow) ∈ s.bytes := ⟨rfl, hbacked⟩
    rw [h.outside shadow hbacked hout, hsame s.space shadow fun hnot => hnot hbytes]

variable {A ε : Type}

/-- A range of whole granules whose shadow bytes the map holds is marked with the tag. -/
theorem run_track_poison_of_covers {start len : UInt64} (tag : Tag) (hstart : start.toNat % 8 = 0)
    (hlen : len.toNat % 8 = 0) (hfit : start.toNat + len.toNat ≤ 2 ^ 64)
    (h : s.Covers start.toNat (start.toNat + len.toNat)) (untracked : ShadowError → Event) (m : Machine A) :
    ∃ m' : Machine A, (Redzones.track (some s) (·.poison start len tag) untracked : Action A ε Unit).run m =
        (.done (), m') ∧ m'.allocator = m.allocator ∧ m.memory.SameOutside s.bytes m'.memory ∧
      s.Writes start.toNat (start.toNat + len.toNat) (fun _ => tag.byte) m.memory m'.memory := by
  obtain ⟨m', hrun, halloc, hsame, hbyte⟩ := run_poison_of_covers tag hstart hlen hfit h m
  refine ⟨m', ?_, halloc, hsame.mono footprint_subset_bytes, writes_of_footprint hsame hbyte⟩
  rw [Redzones.run_track, hrun]

end ShadowMap

namespace Redzones

/-- The shadow byte of an address in a block for `len` user bytes that starts at `header`: the redzone in front, the whole
granules of the user's bytes, the number of them in the boundary granule, and the redzone behind. -/
def marking (r : Redzones) (header : Address) (len : UInt64) (a : Address) : UInt8 :=
  let user := header.toNat + r.head.toNat
  if a.toNat < user then 0xfa
  else if a.toNat < user + len.toNat / 8 * 8 then 0
  else if a.toNat < user + roundUp len.toNat then (len % 8).toUInt8
  else 0xfb

variable {A E : Type} {r : Redzones} {s : ShadowMap} {x : UserBlock} {len : UInt64} {memory memory' : Memory}

theorem Laid.eq_marking (h : r.Laid s memory x) (hx : r.Fits x) (a : Address) (hlo : r.start x ≤ a.toNat)
    (hhi : a.toNat < r.stop x) : s.byteAt memory a = r.marking (x.user - r.head) x.len a := by
  have huser : (x.user - r.head).toNat + r.head.toNat = x.user.toNat := by rw [hx.block_addr, hx.start_add]
  simp only [marking, huser]
  split_ifs with hhead hwhole hboundary
  · exact h.head a hlo hhead
  · exact h.whole a (by omega) hwhole
  · have hbyte := h.boundary a (by omega) hboundary
    rw [← UInt8.toNat_inj, hbyte]
    exact (toNat_boundary_byte x.len).symm
  · exact h.tail a (by omega) hhi

/-- The marks of a block that the map holds whole are those of `marking`. -/
theorem Marked.writes (h : r.Marked s x memory memory') (hx : r.Fits x) (hcovers : s.Covers (r.start x) (r.stop x)) :
    s.Writes (r.start x) (r.stop x) (r.marking (x.user - r.head) x.len) memory memory' :=
  ShadowMap.writes_of_footprint h.frame ((h.laid hcovers).eq_marking hx)

/-- How an operation that asks for a block for `len` user bytes goes on, once the allocator is asked on the machine `m₀`. A
block is laid out, and besides its shadow bytes its first word is written; after a refusal nothing more happens. -/
structure Answered (r : Redzones) (s : ShadowMap) (len : UInt64) (ask : Action A E Address) (m₀ : Machine A)
    (ended : Outcome (HeapError E) Address × Machine A) : Prop where
  done : ∀ header m₁, ask.run m₀ = (.done header, m₁) → m₀.memory.SameAt s.bytes m₁.memory →
    header.toNat % 8 = 0 → header.toNat + r.total len < 2 ^ 64 →
    s.Covers header.toNat (header.toNat + r.total len) → s.bytes.Avoids header.toNat (header.toNat + r.total len) →
    ∃ m', ended = (.done (header + r.head), m') ∧ m'.allocator = m₁.allocator ∧
      s.Writes header.toNat (header.toNat + r.total len) (r.marking header len) m₀.memory m'.memory ∧
      (m₁.memory.writeWord header (roundUp len.toNat).toUInt64).SameOutside s.bytes m'.memory
  refused : ∀ e m₁, ask.run m₀ = (.failed e, m₁) → ended = (.failed (.allocator e), m₁)

theorem answered_handOut (hr : r.Valid) (hsize : r.total len < 2 ^ 64) (ask : Action A E Address) (m₀ : Machine A) :
    r.Answered s len ask m₀ ((r.handOut (some s) ask len (roundUp len.toNat).toUInt64).run m₀) where
  done header m₁ hask hkept hmod hlt hcovers havoids := by
    have hblock := blockSize?_of_total_lt hsize
    obtain ⟨haligned, htotal⟩ : (roundUp len.toNat).toUInt64.toNat = roundUp len.toNat ∧
        (r.total len).toUInt64.toNat = r.total len := blockSize?_eq_some_iff.mp hblock
    obtain ⟨user, rfl, hfits, -⟩ := exists_block hblock header (by rwa [htotal])
    have haddr : (user - r.head).toNat = r.start ⟨user, len⟩ := hfits.block_addr
    have hstart : r.start ⟨user, len⟩ + r.head.toNat = user.toNat := hfits.start_add
    have hle_head := hr.le_head
    have hhead := hr.head_mod
    have hspan : r.total len = roundUp len.toNat + r.head.toNat + r.tail.toNat := rfl
    have hend : r.stop ⟨user, len⟩ = user.toNat + roundUp len.toNat + r.tail.toNat := rfl
    have hstop : (user - r.head).toNat + r.total len = r.stop ⟨user, len⟩ := by omega
    have hcovers : s.Covers (r.start ⟨user, len⟩) (r.stop ⟨user, len⟩) := by rwa [← haddr, ← hstop]
    have hplaced : r.Placed s.bytes ⟨user, len⟩ :=
      ⟨hfits, show user.toNat % 8 = 0 by omega, by omega, by rwa [← haddr, ← hstop]⟩
    obtain ⟨m', hrun, halloc, hmarked⟩ := run_handOut_tracked (s := s) hr hplaced haligned (Or.inr hcovers) hask
    have hword : m₁.memory.SameAt s.bytes (m₁.memory.writeWord (user - r.head) (roundUp len.toNat).toUInt64) :=
      hplaced.sameAt_writeWord hr m₁.memory _
    have hwrites := hmarked.writes hfits hcovers
    rw [← haddr, ← hstop] at hwrites
    rw [UInt64.sub_add_cancel]
    exact ⟨m', hrun, halloc, hwrites.of_sameAt (hkept.trans hword), hmarked.frame.mono ShadowMap.footprint_subset_bytes⟩
  refused e m₁ hask := by
    rw [run_handOut, hask]

section Operations

variable [HeapAllocator A E] (hr : r.Valid) {user : Address}
include hr

theorem answered_allocate (hsize : r.total len < 2 ^ 64) (m : Machine A) :
    r.Answered s len (HeapAllocator.allocate (r.total len).toUInt64) { m with log := m.log.push (.alloc len) }
      ((r.allocate (some s) len).run m) := by
  rw [run_allocate, blockSize?_of_total_lt hsize]
  exact answered_handOut hr hsize _ _

variable (hle : r.head.toNat ≤ user.toNat) (hmod : user.toNat % 8 = 0) {old : Nat} (hgranules : old % 8 = 0)
  (hfit : user.toNat + old ≤ 2 ^ 64) (hcovers : s.Covers user.toNat (user.toNat + old))
include hle

theorem ne_zero_of_head_le : user ≠ 0 := by
  rintro rfl
  have hle_head := hr.le_head
  have h0 : (0 : UInt64).toNat = 0 := rfl
  omega

omit hr in
theorem headerOf?_of_head_le : r.headerOf? user = some (user - r.head) := by
  rw [headerOf?, checkedSub_eq_some_iff, toNat_sub_of_le hle]
  omega

/-- A block that the allocator does not take back is left alone. -/
theorem run_free_of_refused (shadow? : Option ShadowMap) {m m₁ : Machine A} {e : E}
    (hask : (HeapAllocator.free (user - r.head) : Action A E Unit).run { m with log := m.log.push (.free user) } =
      (.failed e, m₁)) : (r.free shadow? user).run m = (.failed (.allocator e), m₁) := by
  rw [run_free (ne_zero_of_head_le hr hle) (headerOf?_of_head_le hle), hask]

include hmod hgranules hfit hcovers

/-- The old bytes are marked freed, and then the allocator is asked. -/
theorem answered_reallocate {m : Machine A} (hold : (m.memory.readWord (user - r.head)).toNat = old)
    (hsize : r.total len < 2 ^ 64) :
    ∃ m₀ : Machine A, m₀.allocator = m.allocator ∧ m.memory.SameOutside s.bytes m₀.memory ∧
      s.Writes user.toNat (user.toNat + old) (fun _ => 0xfd) m.memory m₀.memory ∧
      r.Answered s len (HeapAllocator.reallocate (user - r.head) (r.total len).toUInt64) m₀
        ((r.reallocate (some s) user len).run m) := by
  subst hold
  obtain ⟨m₀, hrun, halloc, hframe, hwrites⟩ := ShadowMap.run_track_poison_of_covers (ε := HeapError E) .heapFreed hmod
    hgranules hfit hcovers (.reallocUntracked user) { m with log := m.log.push (.realloc user len) }
  refine ⟨m₀, halloc, hframe, hwrites, ?_⟩
  have hrest : (r.reallocate (some s) user len).run m =
      (r.handOut (some s) (HeapAllocator.reallocate (user - r.head) (r.total len).toUInt64) len
        (roundUp len.toNat).toUInt64).run m₀ := by
    rw [run_reallocate (ne_zero_of_head_le hr hle) (headerOf?_of_head_le hle), blockSize?_of_total_lt hsize]
    exact Action.run_bind_of_done hrun
  rw [hrest]
  exact answered_handOut hr hsize _ _

/-- The allocator takes the block back, and then its bytes are marked freed. -/
theorem run_free_of_covers {m m₁ : Machine A} (hold : (m.memory.readWord (user - r.head)).toNat = old)
    (hask : (HeapAllocator.free (user - r.head) : Action A E Unit).run { m with log := m.log.push (.free user) } =
      (.done (), m₁)) (hkept : m.memory.SameAt s.bytes m₁.memory) :
    ∃ m', (r.free (some s) user).run m = (.done (), m') ∧ m'.allocator = m₁.allocator ∧
      s.Writes user.toNat (user.toNat + old) (fun _ => 0xfd) m.memory m'.memory ∧
      m₁.memory.SameOutside s.bytes m'.memory := by
  subst hold
  obtain ⟨m', hrun, halloc, hframe, hwrites⟩ := ShadowMap.run_track_poison_of_covers (ε := HeapError E) .heapFreed hmod
    hgranules hfit hcovers (.freeUntracked user) m₁
  refine ⟨m', ?_, halloc, hwrites.of_sameAt hkept, hframe⟩
  rw [run_free (ne_zero_of_head_le hr hle) (headerOf?_of_head_le hle), hask]
  exact hrun

end Operations

/-- **The effect of the heap operations on the shadow map.** An allocation that the allocator answers with a block sets the
shadow bytes of exactly that block, to its marking; refused, it leaves things as the allocator does. A block that is resized
or given back has recorded `old` bytes. Resizing first sets exactly their shadow bytes to 0xfd; what comes then is as for an
allocation, on top of that. Giving it back sets exactly these shadow bytes to 0xfd as well, but only after the allocator has
taken the block; refused, it leaves things as the allocator does. -/
theorem shadow_effects [HeapAllocator A E] (c : Config) (hvalid : c.validate = .ok ()) (s : ShadowMap) (m : Machine A) :
    let r := ofConfig c
    (∀ len, r.total len < 2 ^ 64 →
      r.Answered s len (HeapAllocator.allocate (r.total len).toUInt64) { m with log := m.log.push (.alloc len) }
        ((r.allocate (some s) len).run m)) ∧
    ∀ (user : Address) (old : Nat), r.head.toNat ≤ user.toNat → user.toNat % 8 = 0 →
      (m.memory.readWord (user - r.head)).toNat = old → old % 8 = 0 → user.toNat + old ≤ 2 ^ 64 →
      s.Covers user.toNat (user.toNat + old) →
      (∀ len, r.total len < 2 ^ 64 → ∃ m₀ : Machine A, m₀.allocator = m.allocator ∧
        m.memory.SameOutside s.bytes m₀.memory ∧
        s.Writes user.toNat (user.toNat + old) (fun _ => 0xfd) m.memory m₀.memory ∧
        r.Answered s len (HeapAllocator.reallocate (user - r.head) (r.total len).toUInt64) m₀
          ((r.reallocate (some s) user len).run m)) ∧
      (∀ m₁, (HeapAllocator.free (user - r.head) : Action A E Unit).run { m with log := m.log.push (.free user) } =
          (.done (), m₁) → m.memory.SameAt s.bytes m₁.memory →
        ∃ m', (r.free (some s) user).run m = (.done (), m') ∧ m'.allocator = m₁.allocator ∧
          s.Writes user.toNat (user.toNat + old) (fun _ => 0xfd) m.memory m'.memory ∧
          m₁.memory.SameOutside s.bytes m'.memory) ∧
      ∀ e m₁, (HeapAllocator.free (user - r.head) : Action A E Unit).run { m with log := m.log.push (.free user) } =
          (.failed e, m₁) → (r.free (some s) user).run m = (.failed (.allocator e), m₁) := by
  intro r
  have hr : r.Valid := valid_of_validate hvalid
  refine ⟨fun len hsize => answered_allocate hr hsize m, fun user old hle hmod hold hgranules hfit hcovers => ?_⟩
  refine ⟨fun len hsize => ?_, fun m₁ hask hkept => ?_, fun e m₁ hask => ?_⟩
  · exact answered_reallocate hr hle hmod hgranules hfit hcovers hold hsize
  · exact run_free_of_covers hr hle hmod hgranules hfit hcovers hold hask hkept
  · exact run_free_of_refused hr hle (some s) hask

/-- a map in the program's memory that holds the shadow bytes of the addresses from 0x8000 to 0x10000 -/
def pageMap : ShadowMap := { space := .program, base := 0x1000, len := 0x1000, translation := ⟨0⟩ }

theorem pageMap_covers {lo hi : Nat} (hlo : 0x8000 ≤ lo) (hhi : hi ≤ 0x10000) : pageMap.Covers lo hi := by
  have hbase : pageMap.base.toNat = 0x1000 := rfl
  have hlen : pageMap.len.toNat = 0x1000 := rfl
  have hoffset : pageMap.translation.offset.toNat = 0 := rfl
  refine ShadowMap.covers_of_le ?_ ?_ ?_
  · show pageMap.base.toNat + pageMap.len.toNat ≤ 2 ^ 64
    omega
  all_goals omega

theorem pageMap_avoids {lo hi : Nat} (hlo : 0x2000 ≤ lo) : pageMap.bytes.Avoids lo hi := by
  rintro a h1 h2 ⟨-, hbacked⟩
  have hbase : pageMap.base.toNat = 0x1000 := rfl
  have hlen : pageMap.len.toNat = 0x1000 := rfl
  have := (ShadowMap.backs_iff.mp hbacked).2
  simp only at this
  omega

/-- A block for 13 bytes has its last granule marked 5. It is resized to 100 bytes in place, under the marks of its old
bytes; an allocator that has no block leaves these. It is given back, or refused by an allocator that does not take it. -/
theorem pageMap_effects :
    let fresh : Machine Scripted := { allocator := { script := [some 0x8000] } }
    let used : Machine Scripted := { fresh with memory := fresh.memory.writeWord 0x8000 16 }
    let poor : Machine Scripted := { used with allocator := {} }
    let r : Redzones := {}
    (∃ m', (r.allocate (some pageMap) 13).run fresh = (.done 0x8040, m') ∧
      pageMap.Writes 0x8000 0x8070 (r.marking 0x8000 13) fresh.memory m'.memory) ∧
    r.marking 0x8000 13 0x8048 = 5 ∧
    (∃ m₀ m' : Machine Scripted, pageMap.Writes 0x8040 0x8050 (fun _ => 0xfd) used.memory m₀.memory ∧
      (r.reallocate (some pageMap) 0x8040 100).run used = (.done 0x8040, m') ∧
      pageMap.Writes 0x8000 0x80c8 (r.marking 0x8000 100) m₀.memory m'.memory) ∧
    (∃ m', (r.reallocate (some pageMap) 0x8040 100).run poor = (.failed (.allocator .exhausted), m') ∧
      pageMap.Writes 0x8040 0x8050 (fun _ => 0xfd) poor.memory m'.memory) ∧
    (∃ m', (r.free (some pageMap) 0x8040).run used = (.done (), m') ∧
      pageMap.Writes 0x8040 0x8050 (fun _ => 0xfd) used.memory m'.memory) ∧
    ∃ m', (r.free (some pageMap) 0x8040).run poor = (.failed (.allocator .exhausted), m') ∧
      m'.memory = poor.memory := by
  intro fresh used poor r
  have hword (m : Machine Scripted) (h : m.memory = used.memory) : (m.memory.readWord (0x8040 - r.head)).toNat = 16 := by
    have haddr : (0x8040 : Address) - r.head = 0x8000 := by decide
    rw [h, haddr, Memory.readWord_writeWord]
    rfl
  obtain ⟨hallocate, -⟩ := shadow_effects {} rfl pageMap fresh
  obtain ⟨-, hused⟩ := shadow_effects {} rfl pageMap used
  obtain ⟨-, hpoor⟩ := shadow_effects {} rfl pageMap poor
  obtain ⟨hresized, hfreed, -⟩ := hused 0x8040 16 (by decide) (by decide) (hword used rfl) (by decide) (by decide)
    (pageMap_covers (by decide) (by decide))
  obtain ⟨hrefused, -, hkept⟩ := hpoor 0x8040 16 (by decide) (by decide) (hword poor rfl) (by decide) (by decide)
    (pageMap_covers (by decide) (by decide))
  refine ⟨?_, by decide, ?_, ?_, ?_, ?_⟩
  · obtain ⟨m', hrun, -, hwrites, -⟩ := (hallocate 13 (by decide)).done 0x8000 _ rfl (Memory.SameOutside.refl _ _)
      (by decide) (by decide) (pageMap_covers (by decide) (by decide)) (pageMap_avoids (by decide))
    exact ⟨m', hrun, hwrites⟩
  · obtain ⟨⟨memory, log, allocator⟩, halloc, -, hmarked, hanswered⟩ := hresized 100 (by decide)
    obtain rfl : allocator = { script := [some 0x8000] } := halloc
    obtain ⟨m', hrun, -, hwrites, -⟩ := hanswered.done 0x8000 _ rfl (Memory.SameOutside.refl _ _) (by decide) (by decide)
      (pageMap_covers (by decide) (by decide)) (pageMap_avoids (by decide))
    exact ⟨_, m', hmarked, hrun, hwrites⟩
  · obtain ⟨⟨memory, log, allocator⟩, halloc, -, hmarked, hanswered⟩ := hrefused 100 (by decide)
    obtain rfl : allocator = {} := halloc
    exact ⟨_, hanswered.refused .exhausted _ rfl, hmarked⟩
  · obtain ⟨m', hrun, -, hwrites, -⟩ := hfreed _ rfl (Memory.SameOutside.refl _ _)
    exact ⟨m', hrun, hwrites⟩
  · exact ⟨_, hkept _ _ rfl, rfl⟩

end Redzones

end AddressSanitizer
