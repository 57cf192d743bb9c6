/-
Redzones behind globals. A compiler pads its globals to whole granules and puts them side by side; registering them makes
each variable accessible and tags its padding. As the padded ranges are disjoint, no registration touches the shadow bytes
of another global, so that all of them are protected in the end, in whatever order they were registered.

- `run_registerGlobal`: one registration sets the shadow bytes of the padded range, each to the `marking` of its address,
  and no others.
- `run_registerGlobals`: so does the registration of a list, by induction on it.
- `Registered.fenced`: the shadow bytes of a registered global are those of a range with a redzone behind it.
- `read_eq_of_registered`: they and the shadow bytes of no other global determine the memory.
- `Context.globals_protected`: what follows for accesses, and that the order does not matter.

The descriptors are assumed to stay what they are while they are registered: none lies in the shadow bytes. The order on
sets of addresses, which disjoint ranges are about, is that of complete partial orders.
-/
import Mathlib.Tactic
import Mathlib.Order.CompletePartialOrder
import AddressSanitizer.Global.Registration
import AddressSanitizer.Proofs.Fences
import AddressSanitizer.Proofs.ShadowUpdates

namespace AddressSanitizer

variable {A : Type} {s : ShadowMap} {memory memory' : Memory} {m : Machine A} {g : Global} {gs gs' : List Global}
  {a : Address}

namespace Global

variable {d : Descriptor}

/-- No write to a shadow byte changes what is described: it is given by its values, or its words are no shadow bytes. -/
def Descriptor.Lasting (s : ShadowMap) : Descriptor → Prop
  | given _ => True
  | stored a => a.toNat + 32 ≤ 2 ^ 64 ∧ s.bytes.Avoids a.toNat (a.toNat + 32)

theorem Descriptor.Lasting.global_eq (h : d.Lasting s) (hsame : memory.SameOutside s.bytes memory') :
    d.global memory' = d.global memory := by
  cases d with
  | given g => rfl
  | stored a =>
    obtain ⟨hlt, hoff⟩ := h
    have hword (k : UInt64) (hk : k.toNat + 8 ≤ 32) : memory'.readWord (a + k) = memory.readWord (a + k) := by
      have hsum : (a + k).toNat = a.toNat + k.toNat := toNat_add_of_lt (by omega)
      exact hsame.readWord_eq (by omega) (hoff.mono (by omega) (by omega))
    have hfirst := hword 0 (by decide)
    rw [UInt64.add_zero] at hfirst
    simp only [global_stored, read, hfirst, hword 8 (by decide), hword 16 (by decide), hword 24 (by decide)]

/-- the addresses of a global and of its padding -/
def range (g : Global) : Set Nat := Set.Ico g.start.toNat (g.start.toNat + g.padded.toNat)

/-- A global that is padded to whole granules, all of which the map holds. -/
structure Padded (s : ShadowMap) (g : Global) : Prop where
  start_mod : g.start.toNat % 8 = 0
  padded_mod : g.padded.toNat % 8 = 0
  round_le : roundUp g.size.toNat ≤ g.padded.toNat
  stop_lt : g.start.toNat + g.padded.toNat < 2 ^ 64
  covers : s.Covers g.start.toNat (g.start.toNat + g.padded.toNat)

/-- The shadow byte of an address in the range: the variable's bytes are accessible, and the granules behind them are
redzone. -/
def marking (g : Global) (a : Address) : UInt8 :=
  if a.toNat < g.start.toNat + roundUp g.size.toNat then ShadowMap.accessibleByte g.start g.size a
  else Tag.globalRedzone.byte

end Global

namespace ShadowMap

/-- the shadow bytes of a global and of its padding -/
def globalBytes (s : ShadowMap) (g : Global) : Footprint := s.footprint g.start.toNat (g.start.toNat + g.padded.toNat)

/-- the shadow bytes of all of these globals -/
def globalsBytes (s : ShadowMap) (gs : List Global) : Footprint := {p | ∃ g ∈ gs, p ∈ s.globalBytes g}

/-- the shadow bytes of a global are what its registration makes them -/
def Registered (s : ShadowMap) (memory : Memory) (g : Global) : Prop :=
  ∀ a : Address, a.toNat ∈ g.range → s.byteAt memory a = g.marking a

theorem not_mem_globalBytes (hg : g.Padded s) (ha : a.toNat ∉ g.range) : (s.space, s.toShadow a) ∉ s.globalBytes g := by
  have hstart := hg.start_mod
  have hpadded := hg.padded_mod
  rw [Global.range, Set.mem_Ico] at ha
  exact not_mem_footprint hstart (by omega) (by omega)

/-- A registered global stays registered when the shadow bytes of globals change that it shares no address with. -/
theorem Registered.keep (h : s.Registered memory g) (hpadded : ∀ g' ∈ gs, g'.Padded s)
    (hapart : ∀ g' ∈ gs, Disjoint g.range g'.range) (hsame : memory.SameOutside (s.globalsBytes gs) memory') :
    s.Registered memory' g := by
  intro a ha
  rw [← h a ha]
  refine byteAt_of_sameOutside hsame ?_
  rintro ⟨g', hg', hin⟩
  exact not_mem_globalBytes (hpadded g' hg') (Set.disjoint_left.mp (hapart g' hg') ha) hin

/-- The shadow bytes of a registered global are those of a range with a redzone behind it. -/
theorem Registered.fenced (h : s.Registered memory g) (hg : g.Padded s) :
    s.Fenced memory g.start g.size (g.start.toNat + g.padded.toNat) .globalRedzone := by
  have hround := le_roundUp g.size.toNat
  have hle := hg.round_le
  refine ⟨fun a h1 h2 => ?_, fun a h1 h2 => ?_, fun a h1 h2 => ?_⟩
  · rw [h a ⟨h1, by omega⟩, Global.marking, if_pos (by omega)]
    exact accessibleByte_of_whole h2
  · have hbyte : accessibleByte g.start g.size a = (granuleOffset g.size).toUInt8 := if_neg (by omega)
    rw [h a ⟨by omega, by omega⟩, Global.marking, if_pos h2, hbyte]
    exact toNat_boundary_byte g.size
  · rw [h a ⟨by omega, h2⟩, Global.marking, if_neg (by omega)]

/-! ## Registration -/

/-- The redzone of a padded global starts behind the granules of the variable and reaches to the end of the range. -/
theorem exists_redzone (hg : g.Padded s) :
    ∃ aligned redzone : UInt64, alignUp g.size = some aligned ∧ checkedAdd g.start aligned = some redzone ∧
      redzone.toNat = g.start.toNat + roundUp g.size.toNat ∧
      redzone.toNat + (saturatingSub g.padded aligned).toNat = g.start.toNat + g.padded.toNat := by
  have hround := hg.round_le
  have hstop := hg.stop_lt
  obtain ⟨aligned, haligned⟩ := exists_address (n := roundUp g.size.toNat) (by omega)
  have hsum : (g.start + aligned).toNat = g.start.toNat + aligned.toNat := toNat_add_of_lt (by omega)
  have hsub : checkedSub g.padded aligned = some (g.padded - aligned) :=
    if_pos (UInt64.le_iff_toNat_le.mpr (by omega))
  have hdiff := checkedSub_eq_some_iff.mp hsub
  refine ⟨aligned, g.start + aligned, alignUp_eq_some_iff.mpr haligned, checkedAdd_of_lt (by omega), by omega, ?_⟩
  rw [saturatingSub, hsub, Option.getD_some]
  omega

/-- Registering a padded global sets the shadow bytes of its range, and no others. -/
theorem run_registerGlobal {d : Global.Descriptor} (hd : d.Lasting s) (hdesc : d.global m.memory = g) (hg : g.Padded s) :
    ∃ m' : Machine A, (s.registerGlobal d).run m = (.done (), m') ∧ m'.allocator = m.allocator ∧
      m.memory.SameOutside (s.globalBytes g) m'.memory ∧ s.Registered m'.memory g := by
  have hstart := hg.start_mod
  have hmod := hg.padded_mod
  have hround := hg.round_le
  have hstop := hg.stop_lt
  have hsizemod := roundUp_mod g.size.toNat
  -- the variable is made accessible, which leaves its descriptor as it is
  have hfit : g.start.toNat + roundUp g.size.toNat ≤ 2 ^ 64 := by omega
  obtain ⟨m₁, hrun₁, halloc₁, hsame₁, hwhole, hboundary⟩ := run_unpoison_of_covers hstart hfit
    (hg.covers.mono le_rfl (by omega)) { m with log := m.log.push (.registerGlobal g.start g.size g.padded) }
  have hnow : d.global m₁.memory = g := (hd.global_eq (hsame₁.mono footprint_subset_bytes)).trans hdesc
  obtain ⟨aligned, redzone, haligned, hadd, hredzone, hend⟩ := exists_redzone hg
  have hredzonemod : redzone.toNat % 8 = 0 := by omega
  have htailmod : (saturatingSub g.padded aligned).toNat % 8 = 0 := by omega
  obtain ⟨m₂, hrun₂, halloc₂, hsame₂, htail⟩ := run_poison_of_covers .globalRedzone hredzonemod htailmod (by omega)
    (hg.covers.mono (by omega) (by omega)) m₁
  rw [hend] at hsame₂ htail
  refine ⟨m₂, ?_, halloc₂.trans halloc₁, ?_, ?_⟩
  · rw [registerGlobal, Action.run_bind_of_done (Action.run_memory m)]
    dsimp only
    rw [hdesc, Action.run_bind_of_done (Action.run_emit m _), Action.run_bind_of_done hrun₁,
      Action.run_bind_of_done (Action.run_memory m₁), hnow, haligned,
      Action.run_bind_of_done (Action.run_require_some m₁ _ _), hadd,
      Action.run_bind_of_done (Action.run_require_some m₁ _ _)]
    exact hrun₂
  · exact (hsame₁.mono (footprint_mono le_rfl (by omega))).trans (hsame₂.mono (footprint_mono (by omega) le_rfl))
  · rintro a ⟨h1, h2⟩
    rw [Global.marking]
    split_ifs with ha
    · have hkeep : s.byteAt m₂.memory a = s.byteAt m₁.memory a :=
        byteAt_of_sameOutside hsame₂ (not_mem_footprint (by omega) (by omega) (Or.inl (by omega)))
      rw [hkeep]
      rcases Nat.lt_or_ge a.toNat (g.start.toNat + g.size.toNat / 8 * 8) with hlt | hge
      · rw [hwhole a h1 hlt, accessibleByte_of_whole hlt]
      · exact accessibleByte_of_boundary hge (hboundary a hge ha)
    · exact htail a (by omega) h2

/-- Registering padded globals side by side sets the shadow bytes of all their ranges, and no others. -/
theorem run_registerGlobals {ds : List Global.Descriptor} (hlasting : ∀ d ∈ ds, d.Lasting s)
    (hpadded : ∀ d ∈ ds, (d.global memory).Padded s)
    (hapart : ds.Pairwise fun d e => Disjoint (d.global memory).range (e.global memory).range)
    (hbefore : memory.SameOutside s.bytes m.memory) :
    ∃ m' : Machine A, (s.registerGlobals ds).run m = (.done (), m') ∧ m'.allocator = m.allocator ∧
      m.memory.SameOutside (s.globalsBytes (ds.map (·.global memory))) m'.memory ∧
      ∀ d ∈ ds, s.Registered m'.memory (d.global memory) := by
  induction ds generalizing m with
  | nil => exact ⟨m, rfl, rfl, Memory.SameOutside.refl _ _, by simp⟩
  | cons d ds ih =>
    obtain ⟨hd, hlasting⟩ := List.forall_mem_cons.mp hlasting
    obtain ⟨hg, hpadded⟩ := List.forall_mem_cons.mp hpadded
    obtain ⟨hfirst, hapart⟩ := List.pairwise_cons.mp hapart
    obtain ⟨m₁, hrun₁, halloc₁, hsame₁, hregistered⟩ := run_registerGlobal hd (hd.global_eq hbefore) hg
    obtain ⟨m₂, hrun₂, halloc₂, hsame₂, hrest⟩ :=
      ih hlasting hpadded hapart (hbefore.trans (hsame₁.mono footprint_subset_bytes))
    refine ⟨m₂, ?_, halloc₂.trans halloc₁, ?_, ?_⟩
    · rw [registerGlobals, Action.run_bind, hrun₁]
      exact hrun₂
    · refine (hsame₁.mono fun p hp => ?_).trans (hsame₂.mono fun p hp => ?_)
      · exact ⟨d.global memory, by simp, hp⟩
      · obtain ⟨g, hmem, hin⟩ := hp
        exact ⟨g, List.mem_cons_of_mem _ hmem, hin⟩
    · refine List.forall_mem_cons.mpr ⟨hregistered.keep ?_ ?_ hsame₂, hrest⟩
      · exact List.forall_mem_map.mpr hpadded
      · exact List.forall_mem_map.mpr hfirst

/-- The memory that registration leaves does not depend on the order of the globals. -/
theorem read_eq_of_registered {memory₁ memory₂ : Memory} (hmem : ∀ g, g ∈ gs ↔ g ∈ gs')
    (hsame₁ : memory.SameOutside (s.globalsBytes gs) memory₁) (hreg₁ : ∀ g ∈ gs, s.Registered memory₁ g)
    (hsame₂ : memory.SameOutside (s.globalsBytes gs') memory₂) (hreg₂ : ∀ g ∈ gs', s.Registered memory₂ g)
    (space : Space) (x : Address) : memory₂.read space x = memory₁.read space x := by
  by_cases hin : (space, x) ∈ s.globalsBytes gs
  · obtain ⟨g, hg, hspace, a, h1, h2, -, hx⟩ := hin
    obtain rfl : space = s.space := hspace
    obtain rfl : x = s.toShadow a := hx
    calc memory₂.read s.space (s.toShadow a) = g.marking a := hreg₂ g ((hmem g).mp hg) a ⟨h1, h2⟩
      _ = memory₁.read s.space (s.toShadow a) := (hreg₁ g hg a ⟨h1, h2⟩).symm
  · have hin' : (space, x) ∉ s.globalsBytes gs' := by
      rintro ⟨g, hg, hx⟩
      exact hin ⟨g, (hmem g).mpr hg, hx⟩
    rw [hsame₁ space x hin, hsame₂ space x hin']

end ShadowMap

namespace Context

/-- **Registration protects every global, in any order.** Take globals whose padded ranges consist of whole granules, are
tracked and disjoint. Their registration ends well. Afterwards, for each of them, accesses inside the variable pass. If the
reports have fewer than 2^60 rows on either side, a validated access that starts in the variable and runs over its end is
rejected at that end if there is padding, and as a global buffer overflow if the padding is more than the rest of a granule;
and a validated access that starts in the padding is rejected. No byte of memory has changed but the shadow bytes of the
padded ranges; and registering the globals in any other order leaves the same memory. -/
theorem globals_protected (c : Context) (ds : List Global.Descriptor) (m : Machine A)
    (hlasting : ∀ d ∈ ds, d.Lasting c.shadow) (hpadded : ∀ d ∈ ds, (d.global m.memory).Padded c.shadow)
    (hapart : ds.Pairwise fun d e => Disjoint (d.global m.memory).range (e.global m.memory).range) :
    ∃ m' : Machine A, (c.shadow.registerGlobals ds).run m = (.done (), m') ∧
    (∀ d ∈ ds, ∀ g, d.global m.memory = g →
      (∀ access : Access, access.Inside g.start g.size → ((c.check access).run m').1 = .done ()) ∧
      (c.config.RowsNumbered → ∀ access last, c.Validates access last → g.start.toNat ≤ access.addr.toNat →
        access.addr.toNat < g.start.toNat + g.size.toNat → g.start.toNat + g.size.toNat ≤ last.toNat →
        g.size < g.padded →
        ∃ v, ((c.check access).run m').1 = .failed v ∧ v.shadowAddr = c.shadow.toShadow (g.start + g.size) ∧
          (roundUp g.size.toNat < g.padded.toNat → v.kind = .globalBufferOverflow)) ∧
      (c.config.RowsNumbered → ∀ access last, c.Validates access last →
        g.start.toNat + g.size.toNat ≤ access.addr.toNat → access.addr.toNat < g.start.toNat + g.padded.toNat →
        ∃ v, ((c.check access).run m').1 = .failed v)) ∧
    (∀ space x, (∀ d ∈ ds, ∀ a : Address, a.toNat ∈ (d.global m.memory).range →
        (space, x) ≠ (c.shadow.space, c.shadow.toShadow a)) →
      m'.memory.read space x = m.memory.read space x) ∧
    ∀ ds', ds'.Perm ds → ∃ m'' : Machine A, (c.shadow.registerGlobals ds').run m = (.done (), m'') ∧
      ∀ space x, m''.memory.read space x = m'.memory.read space x := by
  obtain ⟨m', hrun, -, hsame, hregistered⟩ :=
    ShadowMap.run_registerGlobals hlasting hpadded hapart (Memory.SameOutside.refl _ _)
  refine ⟨m', hrun, ?_, fun space x hout => ?_, fun ds' hperm => ?_⟩
  · rintro d hd g rfl
    have hg := hpadded d hd
    have hfenced := (hregistered d hd).fenced hg
    have hstop := hg.stop_lt
    refine ⟨fun access hin => check_done_of_inside (fun a => hfenced.permits hg.start_mod) hin,
      fun hrows access last hval hlo hhi hover hlt => ?_, fun hrows access last hval hlo hhi => ?_⟩
    · rw [UInt64.lt_iff_toNat_lt] at hlt
      obtain ⟨v, hfailed, haddr, hkind⟩ := check_failed_of_overrun hrows hfenced hg.start_mod (by decide) hg.covers
        (by omega) (by omega) hval hlo hhi hover
      exact ⟨v, hfailed, haddr, fun hredzone => hkind (by omega)⟩
    · exact ⟨_, check_failed_at_start hrows hval (hg.covers _ (by omega) hhi)
        (hfenced.not_permits hg.start_mod (by decide) hlo hhi)⟩
  · refine hsame space x ?_
    rintro ⟨g, hg, hspace, a, h1, h2, -, hx⟩
    obtain ⟨d, hd, rfl⟩ := List.mem_map.mp hg
    exact hout d hd a ⟨h1, h2⟩ (Prod.ext hspace hx)
  · have hmem (d : Global.Descriptor) : d ∈ ds' ↔ d ∈ ds := hperm.mem_iff
    have hapart' := hperm.symm.pairwise hapart fun hde => hde.symm
    obtain ⟨m'', hrun', -, hsame', hregistered'⟩ := ShadowMap.run_registerGlobals
      (fun d hd => hlasting d ((hmem d).mp hd)) (fun d hd => hpadded d ((hmem d).mp hd)) hapart'
      (Memory.SameOutside.refl _ m.memory)
    refine ⟨m'', hrun', ShadowMap.read_eq_of_registered ?_ hsame ?_ hsame' ?_⟩
    · exact fun g => (hperm.map _).mem_iff.symm
    · exact List.forall_mem_map.mpr hregistered
    · exact List.forall_mem_map.mpr hregistered'

/-- three globals side by side: one whose last bytes share a granule with its padding, one of whole granules, whose
descriptor lies behind them in memory, and an empty one that is all padding -/
def sideBySide : List Global.Descriptor := [.given ⟨0x400, 10, 32, 0⟩, .stored 0x900, .given ⟨0x450, 0, 8, 0⟩]

/-- a machine with the descriptor in its memory -/
def descriptorMachine : Machine Unit := { memory := Global.write ⟨0x420, 16, 48, 0⟩ {} 0x900, allocator := () }

theorem global_descriptorMachine :
    (Global.Descriptor.stored 0x900).global descriptorMachine.memory = ⟨0x420, 16, 48, 0⟩ := by decide +kernel

/-- Reads over the ends of the first two are rejected there, and a read of the last one is rejected, whether they are
registered in this order or backwards. -/
theorem sideBySide_protected :
    (∀ d ∈ sideBySide, d.Lasting lowContext.shadow) ∧
    (∀ d ∈ sideBySide, (d.global descriptorMachine.memory).Padded lowContext.shadow) ∧
    (sideBySide.Pairwise fun d e =>
      Disjoint (d.global descriptorMachine.memory).range (e.global descriptorMachine.memory).range) ∧
    lowContext.config.RowsNumbered ∧
    ∃ m' : Machine Unit, (lowContext.shadow.registerGlobals sideBySide).run descriptorMachine = (.done (), m') ∧
      (∃ v, ((lowContext.check (.load 0x408 8 0)).run m').1 = .failed v ∧ v.shadowAddr = 0x1081 ∧
        v.kind = .globalBufferOverflow) ∧
      (∃ v, ((lowContext.check (.load 0x428 16 0)).run m').1 = .failed v ∧ v.shadowAddr = 0x1086 ∧
        v.kind = .globalBufferOverflow) ∧
      (∃ v, ((lowContext.check (.load 0x450 1 0)).run m').1 = .failed v) ∧
      ∃ m'', (lowContext.shadow.registerGlobals sideBySide.reverse).run descriptorMachine = (.done (), m'') ∧
        ∀ space x, m''.memory.read space x = m'.memory.read space x := by
  have hlasting : ∀ d ∈ sideBySide, d.Lasting lowContext.shadow := by
    simp only [sideBySide, List.forall_mem_cons]
    exact ⟨trivial, ⟨by decide, fun _ _ _ hin => absurd hin.1 nofun⟩, trivial, by simp⟩
  have hpadded : ∀ d ∈ sideBySide, (d.global descriptorMachine.memory).Padded lowContext.shadow := by
    simp only [sideBySide, List.forall_mem_cons, global_descriptorMachine, Global.Descriptor.global_given]
    exact ⟨⟨rfl, rfl, by decide, by decide, lowContext_covers _ (by decide)⟩,
      ⟨rfl, rfl, by decide, by decide, lowContext_covers _ (by decide)⟩,
      ⟨rfl, rfl, by decide, by decide, lowContext_covers _ (by decide)⟩, by simp⟩
  have hapart : sideBySide.Pairwise fun d e =>
      Disjoint (d.global descriptorMachine.memory).range (e.global descriptorMachine.memory).range := by
    simp only [sideBySide, List.pairwise_cons, List.forall_mem_cons, global_descriptorMachine,
      Global.Descriptor.global_given, Global.range, Set.Ico_disjoint_Ico]
    simp
  obtain ⟨m', hrun, hglobals, -, horder⟩ :=
    globals_protected lowContext sideBySide descriptorMachine hlasting hpadded hapart
  obtain ⟨-, hover, -⟩ := hglobals _ (by simp [sideBySide]) _ (Global.Descriptor.global_given ⟨0x400, 10, 32, 0⟩ _)
  obtain ⟨-, hover', -⟩ := hglobals (.stored 0x900) (by simp [sideBySide]) _ global_descriptorMachine
  obtain ⟨-, -, hpadding⟩ := hglobals _ (by simp [sideBySide]) _ (Global.Descriptor.global_given ⟨0x450, 0, 8, 0⟩ _)
  obtain ⟨v, hv, haddr, hkind⟩ := hover (by decide) (.load 0x408 8 0) 0x40f
    (lowContext_validates (by decide) (by decide) (by decide)) (by decide) (by decide) (by decide) (by decide)
  obtain ⟨v', hv', haddr', hkind'⟩ := hover' (by decide) (.load 0x428 16 0) 0x437
    (lowContext_validates (by decide) (by decide) (by decide)) (by decide) (by decide) (by decide) (by decide)
  have hfailed := hpadding (by decide) (.load 0x450 1 0) 0x450
    (lowContext_validates (by decide) (by decide) (by decide)) (by decide) (by decide)
  exact ⟨hlasting, hpadded, hapart, by decide, m', hrun, ⟨v, hv, haddr, hkind (by decide)⟩,
    ⟨v', hv', haddr', hkind' (by decide)⟩, hfailed, horder _ sideBySide.reverse_perm⟩

/-- With 2^60 rows asked for before the faulting one a valid configuration makes the check of a read over the end of a
global trap in its report. -/
theorem longReports_global_traps :
    longReports.config.validate = .ok () ∧ longReports.initialized = true ∧
    (⟨0x400, 10, 32, 0⟩ : Global).Padded longReports.shadow ∧ longReports.Validates (.load 0x408 8 0) 0x40f ∧
    ∃ m' : Machine Unit,
      (longReports.shadow.registerGlobals [.given ⟨0x400, 10, 32, 0⟩]).run descriptorMachine = (.done (), m') ∧
      ((longReports.check (.load 0x408 8 0)).run m').1 = .trapped .mulOverflow := by
  have hcovers : lowContext.shadow.Covers 0x400 (0x400 + 0x20) := lowContext_covers _ (by decide)
  have hval : lowContext.Validates (.load 0x408 8 0) 0x40f := lowContext_validates (by decide) (by decide) (by decide)
  exact ⟨rfl, rfl, ⟨rfl, rfl, by decide, by decide, hcovers⟩, ⟨hval.1, hval.2, hval.3⟩, _, rfl, by decide +kernel⟩

end Context

end AddressSanitizer
