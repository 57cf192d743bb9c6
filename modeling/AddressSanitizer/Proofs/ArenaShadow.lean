/-
Arenas describe themselves. The shadow bytes at the end of an arena are as many as the arena has granules, and the offset of
its translation is the one at which the first of them describes the first granule. So every granule of the arena has a
shadow byte in it, those of the shadow bytes included, and no address outside the arena is taken for one inside it, although
translation wraps around.

- `Placed`, `placed_of_create`: the arenas that are set up.
- `tracks_iff`: the map of an arena tracks exactly the arena.
- `init_reserves`, `byteAt_of_reserved`: an arena can be initialized as its own platform, and what its shadow bytes are then.
- `shadow_describes_arena`: what the map of an arena says about it, and what the checks make of that.
-/
import Mathlib.Tactic
import AddressSanitizer.Arena
import AddressSanitizer.Proofs.Baseline
import AddressSanitizer.Proofs.Validation

namespace AddressSanitizer

/-- a shadow region that does not run past the end of the address space is as long as the layout says -/
theorem Layout.regionLen_of_lt {l : Layout} (h : l.shadowStart.toNat + l.shadowSize.toNat < 2 ^ 64) :
    l.regionLen = l.shadowSize := by
  have hsum := toNat_add_of_lt h
  rw [regionLen, saturatingAdd, checkedAdd_of_lt h, Option.getD_some, ← UInt64.toNat_inj, toNat_sub_of_le (by omega)]
  omega

namespace Arena

/-- The arena starts at a multiple of its alignment, its length is a positive multiple of the unit, and it ends in front of
the end of the address space. -/
structure Placed (a : Arena) : Prop where
  len_pos : 0 < a.len.toNat
  len_mod : a.len.toNat % 64 = 0
  start_mod : a.start.toNat % 4096 = 0
  in_space : a.start.toNat + a.len.toNat < 2 ^ 64

variable {A : Type} {a : Arena}

/-- An arena that is set up is placed, if the allocation it is given is aligned and lies in the address space. -/
theorem placed_of_create {place : UInt64 → Option Address} {len : UInt64} {m m' : Machine A}
    (hplace : ∀ start, place len = some start → start.toNat % 4096 = 0 ∧ start.toNat + len.toNat < 2 ^ 64)
    (hrun : (create place len).run m = (.done a, m')) : a.Placed := by
  unfold create at hrun
  split_ifs at hrun with hvalid
  case neg => cases hrun
  obtain ⟨hne, hunit, -⟩ := hvalid
  cases hstart : place len with
  | none =>
    rw [hstart] at hrun
    cases hrun
  | some start =>
    rw [hstart] at hrun
    cases hrun
    obtain ⟨hmod, hfit⟩ := hplace start hstart
    have hpos : len.toNat ≠ 0 := fun h0 => hne (UInt64.toNat_inj.mp h0)
    have hmod64 : (len % lengthUnit).toNat = 0 := by rw [hunit]; rfl
    rw [UInt64.toNat_mod] at hmod64
    exact ⟨Nat.pos_of_ne_zero hpos, hmod64, hmod, hfit⟩

theorem toNat_shadowLen (a : Arena) : a.shadowLen.toNat = a.len.toNat / 8 := UInt64.toNat_div ..

theorem toNat_realLen (a : Arena) : a.realLen.toNat = a.len.toNat - a.len.toNat / 8 := by
  have hlen := a.toNat_shadowLen
  rw [realLen, toNat_sub_of_le (by omega), hlen]

/-- the context over an arena with the arena's own translation, not initialized yet -/
def context (a : Arena) (config : Config) : Context where
  shadow := a.shadowMap a.translation
  config
  boundaries := .empty

namespace Placed

variable (ha : a.Placed)
include ha

theorem toNat_stop : a.stop.toNat = a.start.toNat + a.len.toNat := toNat_add_of_lt ha.in_space

theorem toNat_shadowStart : a.shadowStart.toNat = a.start.toNat + (a.len.toNat - a.len.toNat / 8) := by
  have hlen := a.toNat_realLen
  have hspace := ha.in_space
  rw [shadowStart, toNat_add_of_lt (by omega), hlen]

theorem shadow_stop : a.shadowStart.toNat + a.shadowLen.toNat = a.start.toNat + a.len.toNat := by
  rw [ha.toNat_shadowStart, toNat_shadowLen]
  omega

/-- the shadow address of any address, counted from the first granule of the arena -/
theorem toNat_toShadow (x : Address) :
    ((a.shadowMap a.translation).toShadow x).toNat =
      (x.toNat / 8 + (a.shadowStart.toNat - a.start.toNat / 8)) % 2 ^ 64 := by
  have hstart := ha.toNat_shadowStart
  have heighth : (a.start / 8).toNat = a.start.toNat / 8 := UInt64.toNat_div ..
  have hoffset : a.translation.offset.toNat = a.shadowStart.toNat - a.start.toNat / 8 := by
    rw [translation, toNat_sub_of_le (by omega), heighth]
  rw [ShadowMap.toNat_toShadow]
  exact congrArg (fun n => (x.toNat / 8 + n) % 2 ^ 64) hoffset

theorem inSpace : (a.shadowMap a.translation).InSpace := by
  have hstop := ha.shadow_stop
  have hspace := ha.in_space
  show a.shadowStart.toNat + a.shadowLen.toNat ≤ 2 ^ 64
  omega

/-- Addresses below the arena have shadow addresses below those in it, and addresses behind it have shadow addresses behind
those in it, or wrap around to smaller ones still. -/
theorem tracks_iff {x : Address} :
    (a.shadowMap a.translation).Tracks x ↔ a.start.toNat ≤ x.toNat ∧ x.toNat < a.start.toNat + a.len.toNat := by
  have hstart := ha.toNat_shadowStart
  have hlen := a.toNat_shadowLen
  have hspace := ha.in_space
  have hmod := ha.len_mod
  have halign := ha.start_mod
  have hx := x.toNat_lt
  have hbase : (a.shadowMap a.translation).base = a.shadowStart := rfl
  have hmaplen : (a.shadowMap a.translation).len = a.shadowLen := rfl
  rw [ShadowMap.Tracks, ShadowMap.backs_iff, ha.toNat_toShadow, hbase, hmaplen]
  omega

/-- the shadow address of an address in the arena -/
theorem toNat_toShadow_of_mem {x : Address} (hlo : a.start.toNat ≤ x.toNat)
    (hhi : x.toNat < a.start.toNat + a.len.toNat) :
    ((a.shadowMap a.translation).toShadow x).toNat = a.shadowStart.toNat + (x.toNat - a.start.toNat) / 8 := by
  have hstart := ha.toNat_shadowStart
  have hspace := ha.in_space
  have halign := ha.start_mod
  rw [ha.toNat_toShadow]
  omega

/-- The shadow bytes of the arena are those of its granules. -/
theorem exists_toShadow_iff {shadow : Address} :
    (∃ x : Address, a.start.toNat ≤ x.toNat ∧ x.toNat < a.start.toNat + a.len.toNat ∧
        (a.shadowMap a.translation).toShadow x = shadow) ↔
      a.shadowStart.toNat ≤ shadow.toNat ∧ shadow.toNat < a.stop.toNat := by
  have hstart := ha.toNat_shadowStart
  have hstop := ha.toNat_stop
  have hspace := ha.in_space
  have hmod := ha.len_mod
  constructor
  · rintro ⟨x, hlo, hhi, rfl⟩
    rw [ha.toNat_toShadow_of_mem hlo hhi]
    omega
  · rintro ⟨hlo, hhi⟩
    obtain ⟨x, hx⟩ := exists_address (n := a.start.toNat + 8 * (shadow.toNat - a.shadowStart.toNat)) (by omega)
    refine ⟨x, by omega, by omega, ?_⟩
    rw [← UInt64.toNat_inj, ha.toNat_toShadow_of_mem (by omega) (by omega)]
    omega

/-! ## Initialization -/

/-- An arena can be initialized as the platform that it is, and then its shadow bytes are reserved. -/
theorem init_reserves (config : Config) (m : Machine A) :
    ∃ m' : Machine A, (a.context config).init a.layout m =
        (.done (), { a.context config with boundaries := .filled (.ofLayout a.layout) }, m') ∧
      (a.shadowMap a.translation).Reserved a.shadowStart.toNat a.stop.toNat m'.memory := by
  have hstart := ha.toNat_shadowStart
  have hstop := ha.shadow_stop
  have hspace := ha.in_space
  have hmod := ha.len_mod
  have halign := ha.start_mod
  have hlen := a.toNat_shadowLen
  have hregion : a.layout.regionLen = a.shadowLen :=
    Layout.regionLen_of_lt (l := a.layout) (show a.shadowStart.toNat + a.shadowLen.toNat < 2 ^ 64 by omega)
  set c := a.context config
  have hfits : c.Fits a.layout := ⟨rfl, by rw [hregion]; exact UInt64.le_refl _, rfl⟩
  have hwhole : c.Whole a.layout :=
    ⟨aligned_iff.mpr (show a.shadowStart.toNat % 8 = 0 by omega), by rw [hregion]; omega⟩
  have hcovers : c.shadow.Covers a.shadowStart.toNat (a.shadowStart.toNat + a.layout.regionLen.toNat) := by
    intro x h1 h2
    rw [hregion] at h2
    exact ha.tracks_iff.mpr ⟨by omega, by omega⟩
  obtain ⟨m', hrun, hreserved⟩ := Context.run_prepare_of_covers hfits hwhole ha.inSpace hcovers m
  refine ⟨m', by rw [Context.init_of_empty rfl, hrun], ?_⟩
  have hbase : c.shadow.base = a.shadowStart := rfl
  rwa [hregion, hbase, hstop, ← ha.toNat_stop] at hreserved

/-- The real memory of the arena is accessible then, and its shadow bytes are reserved. -/
theorem byteAt_of_reserved {memory : Memory} {x : Address}
    (h : (a.shadowMap a.translation).Reserved a.shadowStart.toNat a.stop.toNat memory) (hlo : a.start.toNat ≤ x.toNat)
    (hhi : x.toNat < a.start.toNat + a.len.toNat) :
    (a.shadowMap a.translation).byteAt memory x = if x.toNat < a.shadowStart.toNat then 0 else 0xff := by
  split_ifs with hreal
  · refine h.outside _ (ha.tracks_iff.mpr ⟨hlo, hhi⟩) fun y h1 h2 heq => ?_
    have hgranule := ShadowMap.toShadow_eq_iff.mp heq
    have hstart := ha.toNat_shadowStart
    have hmod := ha.len_mod
    have halign := ha.start_mod
    omega
  · have hstop := ha.toNat_stop
    exact h.inside x (by omega) (by omega)

end Placed

/-- **An arena's shadow describes exactly the arena, itself included.** Under the arena's own translation an address has a
shadow byte exactly if it lies in the arena; the granules of the arena correspond one to one to its shadow bytes. The arena
can be initialized as the platform that it is. Then the shadow bytes of its real memory are zero and the others are
reserved: accesses to its real memory pass, and, if the reports have fewer than 2^60 rows on either side, those that run from
it into the shadow bytes are rejected as accesses to shadow memory. -/
theorem shadow_describes_arena (a : Arena) (ha : a.Placed) (config : Config) (m : Machine A) :
    let s := a.shadowMap a.translation
    (∀ x, (s.load? m.memory (s.toShadow x)).isSome ↔
      a.start.toNat ≤ x.toNat ∧ x.toNat < a.start.toNat + a.len.toNat) ∧
    (∀ x y, s.toShadow x = s.toShadow y ↔ x.toNat / 8 = y.toNat / 8) ∧
    (∀ shadow : Address, (∃ x : Address, a.start.toNat ≤ x.toNat ∧ x.toNat < a.start.toNat + a.len.toNat ∧
        s.toShadow x = shadow) ↔ a.shadowStart.toNat ≤ shadow.toNat ∧ shadow.toNat < a.stop.toNat) ∧
    ∃ c' m', (a.context config).init a.layout m = (.done (), c', m') ∧
      (∀ i, i < a.shadowLen.toNat → m'.memory.read .program (a.shadowStart + i.toUInt64) =
        if i < a.realLen.toNat / 8 then 0 else 0xff) ∧
      (∀ access : Access, a.start.toNat ≤ access.addr.toNat →
        access.addr.toNat + access.size.toNat ≤ a.shadowStart.toNat → ((c'.check access).run m').1 = .done ()) ∧
      (config.RowsNumbered → ∀ (access : Access) (last : Address), access.last? = some last →
        a.start.toNat ≤ access.addr.toNat → access.addr.toNat < a.shadowStart.toNat →
        a.shadowStart.toNat ≤ last.toNat → last.toNat < a.stop.toNat →
        ∃ v, ((c'.check access).run m').1 = .failed v ∧ v.kind = .shadowAccess) := by
  intro s
  have hstart := ha.toNat_shadowStart
  have hstop := ha.toNat_stop
  have hspace := ha.in_space
  have hmod := ha.len_mod
  have halign := ha.start_mod
  have hlen := a.toNat_shadowLen
  have hreal := a.toNat_realLen
  refine ⟨fun x => ?_, fun x y => ShadowMap.toShadow_eq_iff, fun shadow => ha.exists_toShadow_iff, ?_⟩
  · rw [← ha.tracks_iff, Option.isSome_iff_ne_none, ne_eq, ShadowMap.load?_eq_none_iff, not_not]
    exact Iff.rfl
  obtain ⟨m', hinit, hreserved⟩ := ha.init_reserves config m
  have hbyte (x : Address) (hlo : a.start.toNat ≤ x.toNat) (hhi : x.toNat < a.start.toNat + a.len.toNat) :
      s.byteAt m'.memory x = if x.toNat < a.shadowStart.toNat then 0 else 0xff :=
    ha.byteAt_of_reserved hreserved hlo hhi
  refine ⟨_, m', hinit, fun i hi => ?_, fun access hlo hhi => ?_,
    fun hrows access last hlast hlo hhi hreach hend => ?_⟩
  · -- the `i`-th shadow byte is that of the `i`-th granule
    obtain ⟨x, hx⟩ := exists_address (n := a.start.toNat + 8 * i) (by omega)
    have hshadow : a.shadowStart + i.toUInt64 = s.toShadow x := by
      rw [← UInt64.toNat_inj, toNat_add_toUInt64 (by omega), ha.toNat_toShadow_of_mem (by omega) (by omega)]
      omega
    have hvalue := hbyte x (by omega) (by omega)
    rw [hshadow]
    refine hvalue.trans ?_
    by_cases hi' : i < a.realLen.toNat / 8
    · rw [if_pos hi', if_pos (by omega)]
    · rw [if_neg hi', if_neg (by omega)]
  · refine Context.check_done_of_permits fun x h1 h2 _ => ?_
    have hzero : s.byteAt m'.memory x = 0 := by rw [hbyte x (by omega) (by omega), if_pos (by omega)]
    exact Or.inl (congrArg UInt8.toNat hzero)
  · obtain ⟨hsize, hlast_eq⟩ := Access.last?_eq_some_iff.mp hlast
    have hfirst : s.FirstForbidden m'.memory access.addr last a.shadowStart := by
      refine ⟨⟨by omega, hreach, fun x h1 h2 => ha.tracks_iff.mpr ⟨by omega, by omega⟩, ?_⟩, fun x hx => ?_⟩
      · rw [hbyte _ (by omega) (by omega), if_neg (lt_irrefl _)]
        exact not_permits_of_le (by decide)
      · by_contra hbefore
        have hle := hx.addr_le
        apply hx.not_permitted
        rw [hbyte x (by omega) (by omega), if_pos (by omega)]
        exact Or.inl rfl
    refine ⟨_, Context.check_failed_of_firstForbidden hrows ⟨hsize, hlast_eq, _, rfl, ?_, ?_, ?_⟩ hfirst, ?_⟩
    · rintro ⟨hin, -⟩
      exact absurd (UInt64.le_iff_toNat_le.mp hin) (not_le.mpr hhi)
    · rintro ⟨hin, -⟩
      have hbehind : a.stop.toNat ≤ access.addr.toNat := UInt64.le_iff_toNat_le.mp hin
      omega
    · exact UInt64.lt_iff_toNat_lt.mpr hend
    · have hvalue : s.byteAt m'.memory a.shadowStart = 0xff := by
        rw [hbyte _ (by omega) (by omega), if_neg (lt_irrefl _)]
      show ViolationKind.ofShadow (s.byteAt m'.memory a.shadowStart) _ = _
      rw [hvalue]
      rfl

/-- an arena that ends 64 bytes in front of the end of the address space -/
def highArena : Arena := ⟨0xffffffffffffe000, 0x1fc0⟩

/-- The arena is set up and initialized. The shadow byte of its last granule of real memory is zero, the one behind it is
reserved; a read of eight bytes passes in front of the shadow bytes, and is rejected half way into them. -/
theorem highArena_described :
    highArena.Placed ∧
    let m : Machine Unit := { allocator := () }
    let s := highArena.shadowMap highArena.translation
    ∃ m₀ c' m', (create (fun _ => some 0xffffffffffffe000) 0x1fc0).run m = (.done highArena, m₀) ∧
      ¬(s.load? m₀.memory (s.toShadow 0xffffffffffffffc0)).isSome ∧
      (highArena.context {}).init highArena.layout m₀ = (.done (), c', m') ∧
      m'.memory.read .program 0xffffffffffffff40 = 0 ∧ m'.memory.read .program 0xffffffffffffff41 = 0xff ∧
      ((c'.check (.load 0xfffffffffffffbc0 8 0)).run m').1 = .done () ∧
      ∃ v, ((c'.check (.load 0xfffffffffffffbc4 8 0)).run m').1 = .failed v ∧ v.kind = .shadowAccess := by
  obtain ⟨m₀, hcreate⟩ : ∃ m₀, (create (fun _ => some 0xffffffffffffe000) 0x1fc0 : Action Unit ArenaError Arena).run
      { allocator := () } = (.done highArena, m₀) := ⟨_, rfl⟩
  have hplaced : highArena.Placed := by
    refine placed_of_create (fun start hstart => ?_) hcreate
    obtain rfl := Option.some.inj hstart
    decide
  obtain ⟨htracked, -, -, c', m', hinit, hbytes, hpass, hreject⟩ := shadow_describes_arena highArena hplaced {} m₀
  refine ⟨hplaced, m₀, c', m', hcreate, fun hbehind => ?_, hinit, ?_, ?_, ?_, ?_⟩
  · exact absurd ((htracked _).mp hbehind).2 (by decide)
  · exact hbytes 0x378 (by decide)
  · exact hbytes 0x379 (by decide)
  · exact hpass _ (by decide) (by decide)
  · exact hreject (by decide) _ 0xfffffffffffffbcb rfl (by decide) (by decide) (by decide) (by decide)

/-- the smallest arena, at the start of the second page -/
def smallArena : Arena := ⟨0x1000, 64⟩

/-- With 2^60 rows asked for before the faulting one, which a valid configuration may do, the check of a read that runs from
the real memory of an arena into its shadow bytes traps in its report. -/
theorem smallArena_check_traps :
    smallArena.Placed ∧ Context.longReports.config.validate = .ok () ∧
    ∃ c' m', (smallArena.context Context.longReports.config).init smallArena.layout ({ allocator := () } : Machine Unit) =
        (.done (), c', m') ∧
      (Access.load 0x1034 8 0).last? = some 0x103b ∧ smallArena.shadowStart = 0x1038 ∧ smallArena.stop = 0x1040 ∧
      ((c'.check (.load 0x1034 8 0)).run m').1 = .trapped .mulOverflow :=
  ⟨⟨by decide, by decide, by decide, by decide⟩, rfl, _, _, rfl, by decide, by decide, by decide, by decide +kernel⟩


end Arena

end AddressSanitizer
