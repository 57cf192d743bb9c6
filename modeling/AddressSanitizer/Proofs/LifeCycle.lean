/-
The life of a context. A context waits until an initialization succeeds; from then on it stays as that initialization has
made it. An initialization that fails leaves it waiting, one that traps breaks it for good. Nothing else that is done
with a context matters: what its operations change is the machine. The boundaries may be recorded in any kind of latch that
has the `LatchLike.Laws`; these say what one attempt does, and the rest follows by induction on what is done.

- `ContextLife`: a context, the machine it works on, and how its initializations have ended so far.
- `init_ends_alike`: how an initialization ends does not depend on the machine.
- `Reached.init`, `run_reached`: what the attempts so far say about the context, after one more attempt and after a run.
- `Context.life_cycle`: what holds at every state of every run, and at all later ones.
-/
import Mathlib.Tactic
import AddressSanitizer.Global.Registration
import AddressSanitizer.Heap.Scripted
import AddressSanitizer.Proofs.Initialization

namespace AddressSanitizer

/-- what is done with a context -/
inductive ContextCall where
  | init (layout : Layout)
  | poison (start len : UInt64) (tag : Tag)
  | unpoison (start len : UInt64)
  | setTag (shadow : Address) (len : UInt64) (tag : Tag)
  | registerGlobals (globals : List Global.Descriptor)
  | allocate (len : UInt64)
  | reallocate (user : Address) (len : UInt64)
  | free (user : Address)
  | check (access : Access)
  | checkCopy (dst src : Address) (n : UInt64) (pc : Address)
  | checkFill (buffer : Address) (n : UInt64) (pc : Address)
  /-- the program writes bytes, the first one at `addr`; they may be shadow bytes -/
  | write (addr : Address) (bytes : List UInt8)
  deriving DecidableEq, Repr

/-- the layout of an initialization, and how it ended -/
abbrev Attempt := Layout × Outcome ContextError Unit

/-- a context, the machine it works on, and its initializations so far, in order -/
structure ContextLife (A : Type) (L : Type := Latch Boundaries) where
  context : Context L
  machine : Machine A
  attempts : List Attempt := []

variable {A E L : Type}

namespace ContextLife

/-- what an action leaves that works on the machine alone, however it ends -/
def after {ε α : Type} (l : ContextLife A L) (x : Action A ε α) : ContextLife A L :=
  { l with machine := (x.run l.machine).2 }

/-- one call; any arguments are allowed, and a call that traps is followed by others -/
def step [HeapAllocator A E] [LatchLike L Boundaries] (l : ContextLife A L) : ContextCall → ContextLife A L
  | .init layout =>
    match l.context.init layout l.machine with
    | (outcome, context, machine) => { context, machine, attempts := l.attempts ++ [(layout, outcome)] }
  | .poison start len tag => l.after (l.context.shadow.poison start len tag)
  | .unpoison start len => l.after (l.context.shadow.unpoison start len)
  | .setTag shadow len tag => l.after (l.context.shadow.setTag shadow len tag)
  | .registerGlobals globals => l.after (l.context.shadow.registerGlobals globals)
  | .allocate len => l.after (l.context.allocate len)
  | .reallocate user len => l.after (l.context.reallocate user len)
  | .free user => l.after (l.context.free user)
  | .check access => l.after (l.context.check access)
  | .checkCopy dst src n pc => l.after (l.context.checkCopy dst src n pc)
  | .checkFill buffer n pc => l.after (l.context.checkFill buffer n pc)
  | .write addr bytes => l.after (Action.modifyMemory (·.writeBytes addr bytes) : Action A Empty Unit)

def run [HeapAllocator A E] [LatchLike L Boundaries] (l : ContextLife A L) (calls : List ContextCall) : ContextLife A L :=
  calls.foldl step l

/-- the layout of the first initialization that has succeeded -/
def firstSuccess? (l : ContextLife A L) : Option Layout := (l.attempts.find? (·.2 = .done ())).map Prod.fst

/-- some initialization has trapped -/
def Trapped (l : ContextLife A L) : Prop := ∃ a ∈ l.attempts, ∃ t, a.2 = .trapped t

end ContextLife

namespace Context

variable {c : Context L} {layout : Layout}

/-! ## How an initialization ends -/

/-- What is recorded are the boundaries of the layout. -/
theorem eq_ofLayout_of_prepare {m m' : Machine A} {b : Boundaries} (h : (c.prepare layout).run m = (.done b, m')) :
    b = .ofLayout layout := by
  by_cases hfits : c.Fits layout
  · rw [run_prepare_eq hfits] at h
    split at h
    · cases h
    · split at h
      · cases h
        rfl
      · cases h
      · cases h
  · obtain ⟨e, hrun⟩ := run_prepare_of_not_fits (A := A) hfits
    rw [hrun] at h
    cases h

/-- Preparations end in the same way whatever the machine is. -/
theorem prepare_ends_alike (c : Context L) (layout : Layout) :
    ∃ o, ∀ m : Machine A, ((c.prepare layout).run m).1 = o := by
  by_cases hfits : c.Fits layout
  case neg =>
    obtain ⟨e, hrun⟩ := run_prepare_of_not_fits (A := A) hfits
    exact ⟨.failed e, fun m => by rw [hrun]⟩
  by_cases hwhole : c.Whole layout
  case neg =>
    obtain ⟨t, events, hrun⟩ := run_prepare_of_not_whole (A := A) hfits hwhole
    exact ⟨.trapped t, fun m => by rw [hrun]⟩
  rcases run_prepare_of_whole (A := A) hfits hwhole with ⟨e, events, hrun⟩ | ⟨b, events, first, n, hrun⟩
  · exact ⟨.failed e, fun m => by rw [hrun]⟩
  · exact ⟨.done b, fun m => by rw [hrun]⟩

variable [LatchLike L Boundaries]

/-- An initialization ends in the same way, and records the same, whatever the machine is. -/
theorem init_ends_alike (laws : LatchLike.Laws L) (hempty : c.boundaries = LatchLike.empty) (layout : Layout)
    (m m' : Machine A) :
    (c.init layout m).1 = (c.init layout m').1 ∧
      LatchLike.get? (c.init layout m).2.1.boundaries = LatchLike.get? (c.init layout m').2.1.boundaries := by
  obtain ⟨o, hends⟩ := prepare_ends_alike (A := A) c layout
  have hend := hends m
  have hend' := hends m'
  rcases init_cases laws hempty layout m with
    ⟨b, latch, m₁, hrun, hfilled, hinit⟩ | ⟨e, m₁, hrun, hinit⟩ | ⟨t, latch, m₁, hrun, hbroken, hinit⟩ <;>
    rcases init_cases laws hempty layout m' with
      ⟨b', latch', m₁', hrun', hfilled', hinit'⟩ | ⟨e', m₁', hrun', hinit'⟩ | ⟨t', latch', m₁', hrun', hbroken', hinit'⟩ <;>
    rw [hrun] at hend <;> rw [hrun'] at hend' <;> cases hend <;> cases hend' <;> rw [hinit, hinit']
  · exact ⟨rfl, hfilled.trans hfilled'.symm⟩
  · exact ⟨rfl, rfl⟩
  · exact ⟨rfl, (laws.get?_of_broken hbroken).trans (laws.get?_of_broken hbroken').symm⟩

/-! ## Checks of a context that is not initialized -/

/-- Every check passes and leaves the machine as it is, its log too. -/
structure Silent (A : Type) (c : Context L) : Prop where
  check : ∀ access (m : Machine A), (c.check access).run m = (.done (), m)
  copy : ∀ dst src n pc (m : Machine A), (c.checkCopy dst src n pc).run m = (.done (), m)
  fill : ∀ buffer n pc (m : Machine A), (c.checkFill buffer n pc).run m = (.done (), m)

theorem silent_of_not_initialized (h : c.initialized = false) : c.Silent A := by
  have hnone : LatchLike.get? c.boundaries = none := by simpa [initialized] using h
  have hcheck (access : Access) (m : Machine A) : (c.check access).run m = (.done (), m) := by
    have hv : c.violation? m.memory access = none := by
      rw [violation?, hnone]
      rfl
    simp only [Context.check, Action.run_bind, Action.run_memory, hv, Action.run_pure]
  refine ⟨hcheck, fun dst src n pc m => ?_, fun buffer n pc m => hcheck _ m⟩
  simp only [checkCopy, store, load, Action.run_bind, Action.run_attempt, hcheck, Action.run_pure]

/-! ## What the attempts say about the context -/

/-- The attempts that a context has seen, and the context they have left: failures leave it as it was; the first one that
does not fail decides, and all later ones end alike. -/
inductive Reached (c : Context L) : List Attempt → Context L → Prop where
  | waiting {attempts : List Attempt} (failed : ∀ a ∈ attempts, ∃ e, a.2 = .failed e) : c.Reached attempts c
  | initialized {before later : List Attempt} {layout : Layout} {latch : L}
      (filled : LatchLike.get? latch = some (.ofLayout layout)) (failed : ∀ a ∈ before, ∃ e, a.2 = .failed e)
      (again : ∀ a ∈ later, a.2 = .done ()) :
      c.Reached (before ++ (layout, .done ()) :: later) { c with boundaries := latch }
  | broken {before later : List Attempt} {layout : Layout} {t : Trap} {latch : L} (broken : LatchLike.Broken latch)
      (failed : ∀ a ∈ before, ∃ e, a.2 = .failed e) (again : ∀ a ∈ later, a.2 = .trapped .brokenLatch) :
      c.Reached (before ++ (layout, .trapped t) :: later) { c with boundaries := latch }

variable {c' : Context L} {attempts : List Attempt} (laws : LatchLike.Laws L) (hempty : c.boundaries = LatchLike.empty)
include laws hempty

/-- One more attempt. -/
theorem Reached.init (h : c.Reached attempts c') (layout : Layout) (m : Machine A) :
    c.Reached (attempts ++ [(layout, (c'.init layout m).1)]) (c'.init layout m).2.1 := by
  -- only while the context waits is anything tried; after that the latch alone answers
  cases h with
  | waiting failed =>
    rcases init_cases laws hempty layout m with
      ⟨b, latch, m', hrun, hfilled, hinit⟩ | ⟨e, m', -, hinit⟩ | ⟨t, latch, m', -, hbroken, hinit⟩ <;> rw [hinit]
    · obtain rfl := eq_ofLayout_of_prepare hrun
      exact .initialized hfilled failed (by simp)
    · exact .waiting (List.forall_mem_append.mpr ⟨failed, List.forall_mem_singleton.mpr ⟨e, rfl⟩⟩)
    · exact .broken hbroken failed (by simp)
  | initialized filled failed again =>
    rw [init_of_filled laws filled, List.append_assoc, List.cons_append]
    exact .initialized filled failed (List.forall_mem_append.mpr ⟨again, List.forall_mem_singleton.mpr rfl⟩)
  | broken broken failed again =>
    rw [init_of_broken laws broken, List.append_assoc, List.cons_append]
    exact .broken broken failed (List.forall_mem_append.mpr ⟨again, List.forall_mem_singleton.mpr rfl⟩)

/-- An attempt can only fail while the context waits, and then leaves it as it was at first. -/
theorem Reached.eq_of_failed (h : c.Reached attempts c') {e : ContextError} {c₁ : Context L} {m m₁ : Machine A}
    (hrun : c'.init layout m = (.failed e, c₁, m₁)) : c₁ = c := by
  cases h with
  | waiting =>
    rcases init_cases laws hempty layout m with
      ⟨b, latch, m', -, -, hinit⟩ | ⟨e', m', -, hinit⟩ | ⟨t, latch, m', -, -, hinit⟩ <;> rw [hinit] at hrun <;> cases hrun
    rfl
  | initialized filled =>
    rw [init_of_filled laws filled] at hrun
    cases hrun
  | broken broken =>
    rw [init_of_broken laws broken] at hrun
    cases hrun

end Context

namespace ContextLife

variable [HeapAllocator A E] [LatchLike L Boundaries] {l : ContextLife A L} {c : Context L} {layout : Layout}

/-! ## Runs -/

/-- A call that is no initialization changes neither the context nor the attempts. -/
theorem step_cases (l : ContextLife A L) (call : ContextCall) :
    (∃ layout, call = .init layout) ∨
      (l.step call).context = l.context ∧ (l.step call).attempts = l.attempts := by
  cases call with
  | init layout => exact Or.inl ⟨layout, rfl⟩
  | _ => exact Or.inr ⟨rfl, rfl⟩

theorem step_reached (laws : LatchLike.Laws L) (hempty : c.boundaries = LatchLike.empty)
    (h : c.Reached l.attempts l.context) (call : ContextCall) :
    c.Reached (l.step call).attempts (l.step call).context := by
  rcases l.step_cases call with ⟨layout, rfl⟩ | ⟨hcontext, hattempts⟩
  · exact h.init laws hempty layout l.machine
  · rw [hcontext, hattempts]
    exact h

theorem run_reached (laws : LatchLike.Laws L) (hempty : c.boundaries = LatchLike.empty)
    (h : c.Reached l.attempts l.context) (calls : List ContextCall) :
    c.Reached (l.run calls).attempts (l.run calls).context := by
  induction calls generalizing l with
  | nil => exact h
  | cons call calls ih => exact ih (step_reached laws hempty h call)

/-- Attempts are only added. -/
theorem attempts_prefix_run (l : ContextLife A L) (calls : List ContextCall) : l.attempts <+: (l.run calls).attempts := by
  induction calls generalizing l with
  | nil => exact List.prefix_refl _
  | cons call calls ih =>
    refine List.IsPrefix.trans ?_ (ih (l.step call))
    rcases l.step_cases call with ⟨layout, rfl⟩ | ⟨-, hattempts⟩
    · exact List.prefix_append _ _
    · rw [hattempts]

theorem firstSuccess?_run (h : l.firstSuccess? = some layout) (later : List ContextCall) :
    (l.run later).firstSuccess? = some layout := by
  -- the first success is found among the attempts so far, before it would be looked for among the later ones
  obtain ⟨added, hadded⟩ := l.attempts_prefix_run later
  obtain ⟨a, ha, rfl⟩ := Option.map_eq_some_iff.mp h
  rw [firstSuccess?, ← hadded, List.find?_append, ha]
  rfl

theorem Trapped.run (h : l.Trapped) (later : List ContextCall) : (l.run later).Trapped := by
  obtain ⟨a, ha, ht⟩ := h
  exact ⟨a, (l.attempts_prefix_run later).subset ha, ht⟩

omit [HeapAllocator A E] in
theorem not_initialized_of_firstSuccess? (laws : LatchLike.Laws L) (hempty : c.boundaries = LatchLike.empty)
    (h : c.Reached l.attempts l.context) (hnone : l.firstSuccess? = none) : l.context.initialized = false := by
  have hno (a : Attempt) (ha : a ∈ l.attempts) : a.2 ≠ .done () := by
    rw [firstSuccess?, Option.map_eq_none_iff, List.find?_eq_none] at hnone
    simpa using hnone a ha
  generalize l.attempts = attempts, l.context = c' at h hno
  cases h with
  | waiting => simp [Context.initialized, hempty, laws.get?_empty]
  | initialized => exact absurd rfl (hno _ (List.mem_append_right _ (List.mem_cons_self ..)))
  | broken broken => simp [Context.initialized, laws.get?_of_broken broken]

omit [HeapAllocator A E] in
theorem get?_of_firstSuccess? (h : c.Reached l.attempts l.context) (hfirst : l.firstSuccess? = some layout) :
    LatchLike.get? l.context.boundaries = some (.ofLayout layout) := by
  have hskip {before : List Attempt} (failed : ∀ a ∈ before, ∃ e, a.2 = .failed e) :
      before.find? (·.2 = .done ()) = none := by
    refine List.find?_eq_none.mpr fun a ha => ?_
    obtain ⟨e, he⟩ := failed a ha
    simp [he]
  rw [firstSuccess?] at hfirst
  generalize l.attempts = attempts, l.context = c' at h hfirst
  cases h with
  | waiting failed => simp [hskip failed] at hfirst
  | initialized filled failed again =>
    rw [List.find?_append, hskip failed] at hfirst
    cases hfirst
    exact filled
  | broken broken failed again =>
    rw [List.find?_append, hskip failed, Option.none_or] at hfirst
    obtain ⟨a, ha, -⟩ := Option.map_eq_some_iff.mp hfirst
    have hdone := List.find?_some ha
    rcases List.mem_cons.mp (List.mem_of_find?_eq_some ha) with rfl | hmem
    · simp at hdone
    · simp [again a hmem] at hdone

omit [HeapAllocator A E] in
theorem broken_of_trapped (h : c.Reached l.attempts l.context) (htrapped : l.Trapped) :
    LatchLike.Broken l.context.boundaries := by
  obtain ⟨a, ha, t, ht⟩ := htrapped
  generalize l.attempts = attempts, l.context = c' at h ha
  cases h with
  | waiting failed =>
    obtain ⟨e, he⟩ := failed a ha
    cases he.symm.trans ht
  | initialized filled failed again =>
    rcases List.mem_append.mp ha with ha | ha
    · obtain ⟨e, he⟩ := failed a ha
      cases he.symm.trans ht
    · rcases List.mem_cons.mp ha with rfl | ha
      · cases ht
      · cases (again a ha).symm.trans ht
  | broken broken => exact broken

end ContextLife

namespace Context

variable [HeapAllocator A E]

/-- **The life of a context.** Take a fresh context, with a latch of any kind that has the laws, and do anything with it, in
any order. As long as no initialization has succeeded, every check passes and logs nothing, whatever the machine holds. From
the first that succeeds on, the boundaries are those of its layout, and every other initialization succeeds and changes
nothing at all. One that fails leaves the context as it was at first, so that the next one ends as it would have then. And
once one has trapped, the context never is initialized, checks pass, and every other initialization traps and changes
nothing. -/
theorem life_cycle [LatchLike L Boundaries] (laws : LatchLike.Laws L) (c : Context L)
    (hempty : c.boundaries = LatchLike.empty) (m : Machine A) (calls : List ContextCall) :
    let l := ContextLife.run { context := c, machine := m } calls
    (l.firstSuccess? = none → l.context.initialized = false ∧ l.context.Silent A) ∧
    (∀ layout, l.firstSuccess? = some layout → ∀ later,
      LatchLike.get? (l.run later).context.boundaries = some (.ofLayout layout) ∧
        ∀ other (m₁ : Machine A), (l.run later).context.init other m₁ = (.done (), (l.run later).context, m₁)) ∧
    (∀ layout e c' m', l.context.init layout l.machine = (.failed e, c', m') → c' = c ∧
      ∀ again (m₁ : Machine A), (c'.init again m₁).1 = (c.init again m).1 ∧
        LatchLike.get? (c'.init again m₁).2.1.boundaries = LatchLike.get? (c.init again m).2.1.boundaries) ∧
    (l.Trapped → ∀ later, (l.run later).context.initialized = false ∧ (l.run later).context.Silent A ∧
      ∀ layout (m₁ : Machine A),
        (l.run later).context.init layout m₁ = (.trapped .brokenLatch, (l.run later).context, m₁)) := by
  intro l
  have hfirst : c.Reached ({ context := c, machine := m } : ContextLife A L).attempts c := .waiting (by simp)
  have hreached : c.Reached l.attempts l.context := ContextLife.run_reached laws hempty hfirst calls
  have hlater (later : List ContextCall) : c.Reached (l.run later).attempts (l.run later).context :=
    ContextLife.run_reached laws hempty hreached later
  refine ⟨fun hnone => ?_, fun layout hsome later => ?_, fun layout e c' m' hrun => ?_,
    fun htrapped later => ?_⟩
  · have hnot := ContextLife.not_initialized_of_firstSuccess? laws hempty hreached hnone
    exact ⟨hnot, silent_of_not_initialized hnot⟩
  · have hfilled := ContextLife.get?_of_firstSuccess? (hlater later) (ContextLife.firstSuccess?_run hsome later)
    exact ⟨hfilled, fun other m₁ => init_of_filled laws hfilled other m₁⟩
  · obtain rfl := hreached.eq_of_failed laws hempty hrun
    exact ⟨rfl, fun again m₁ => init_ends_alike laws hempty again m₁ m⟩
  · have hbroken := ContextLife.broken_of_trapped (hlater later) (htrapped.run later)
    have hnot : (l.run later).context.initialized = false := by
      simp [initialized, laws.get?_of_broken hbroken]
    exact ⟨hnot, silent_of_not_initialized hnot, fun layout m₁ => init_of_broken laws hbroken layout m₁⟩

/-- a context whose map starts inside a granule -/
def oddContext : Context where
  shadow := { space := .detached, base := 0x1004, len := 0x100, translation := ⟨0xef0⟩ }
  config := {}
  boundaries := .empty

/-- The narrow context turns away the layout with a region of 0x100 bytes, is initialized with the one of 0x80 bytes, and
keeps to that: the first layout does it no harm any more. The layout of the odd context fits, but its region is not made of
whole granules: this context is broken, and no layout helps. -/
theorem narrow_and_odd_life :
    LatchLike.Laws (Latch Boundaries) ∧ narrowContext.boundaries = .empty ∧ oddContext.boundaries = .empty ∧
    let m : Machine Scripted := { allocator := {} }
    let oddLayout : Layout := { narrowLayout 0x100 with shadowStart := 0x1004 }
    let narrow := ContextLife.run { context := narrowContext, machine := m }
      [.poison 0x880 0x10 .heapFreed, .init (narrowLayout 0x100), .init (narrowLayout 0x80)]
    let odd := ContextLife.run { context := oddContext, machine := m } [.init (narrowLayout 0x80), .init oddLayout]
    narrow.attempts = [(narrowLayout 0x100, .failed (.shadow (.invalidRange 0x10f0 0x20))), (narrowLayout 0x80, .done ())] ∧
    (∀ m₁ : Machine Scripted, (narrow.run [.allocate 8]).context.init (narrowLayout 0x100) m₁ =
      (.done (), (narrow.run [.allocate 8]).context, m₁)) ∧
    odd.attempts = [(narrowLayout 0x80, .failed (.baseMismatch 0x1000 0x1004)), (oddLayout, .trapped .unalignedPoison)] ∧
    ∀ m₁ : Machine Scripted, (odd.run [.allocate 8]).context.init oddLayout m₁ =
      (.trapped .brokenLatch, (odd.run [.allocate 8]).context, m₁) := by
  refine ⟨Latch.laws, rfl, rfl, ?_⟩
  intro m oddLayout narrow odd
  refine ⟨by decide +kernel, fun m₁ => ?_, by decide +kernel, fun m₁ => ?_⟩
  · obtain ⟨-, hdone, -⟩ := life_cycle Latch.laws narrowContext rfl m
      [.poison 0x880 0x10 .heapFreed, .init (narrowLayout 0x100), .init (narrowLayout 0x80)]
    exact (hdone (narrowLayout 0x80) (by decide +kernel) [.allocate 8]).2 (narrowLayout 0x100) m₁
  · obtain ⟨-, -, -, hbroken⟩ := life_cycle Latch.laws oddContext rfl m [.init (narrowLayout 0x80), .init oddLayout]
    have htrapped : odd.Trapped := ⟨(oddLayout, .trapped .unalignedPoison), by decide +kernel, _, rfl⟩
    exact (hbroken htrapped [.allocate 8]).2.2 oddLayout m₁

end Context

end AddressSanitizer
