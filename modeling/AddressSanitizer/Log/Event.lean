/-
What the sanitizer logs. An event says what happened; its record is the line that is written for it.
-/
import AddressSanitizer.Layout
import AddressSanitizer.Log.Level
import AddressSanitizer.Report.Line
import AddressSanitizer.Shadow.Error

namespace AddressSanitizer

inductive Event where
  /-- a range is about to be poisoned -/
  | poison (start len : UInt64) (tag : Tag)
  /-- a range is about to be unpoisoned -/
  | unpoison (start len : UInt64)
  /-- a context has been initialized -/
  | initialized (boundaries : Boundaries)
  /-- a global variable is about to be registered -/
  | registerGlobal (start size padded : UInt64)
  /-- a block of `len` bytes is asked for -/
  | alloc (len : UInt64)
  /-- the allocator has handed out a block -/
  | allocated (header user aligned : UInt64)
  /-- the shadow of a new block could not be written -/
  | allocUntracked (user : UInt64) (cause : ShadowError)
  /-- a block is given back -/
  | free (user : UInt64)
  /-- the shadow of a freed block could not be written -/
  | freeUntracked (user : UInt64) (cause : ShadowError)
  /-- a block is to be resized -/
  | realloc (user len : UInt64)
  /-- the shadow of the old block could not be written -/
  | reallocUntracked (user : UInt64) (cause : ShadowError)
  /-- a bump region has been set up -/
  | bumpRegion (start stop align : UInt64)
  /-- a bump block has been carved -/
  | bumpBlock (block len : UInt64)
  /-- an arena has been set up -/
  | arena (base len shadow : UInt64)
  /-- a heap hook has failed, with the error's short form -/
  | allocateHookFailed (len : UInt64) (cause : String)
  | reallocateHookFailed (user len : UInt64) (cause : String)
  | freeHookFailed (user : UInt64) (cause : String)
  /-- instrumented code asked for shadow bytes that are not there -/
  | setShadowFailed (shadow len : UInt64) (cause : ShadowError)
  /-- the descriptors of `count` globals are handed over -/
  | registerGlobals (descriptors count : UInt64)
  /-- descriptors are handed over before there is a context -/
  | registerGlobalsUninitialized (descriptors : UInt64)
  | registerGlobalsFailed (cause : ShadowError)
  /-- a line of a report -/
  | report (line : ReportLine)
  deriving DecidableEq, Repr

namespace Event

def tag : Event → String
  | poison .. | unpoison .. => "kasan::shadow"
  | initialized _ => "kasan::context"
  | registerGlobal .. => "kasan::globals"
  | alloc _ | allocated .. | allocUntracked .. | free _ | freeUntracked .. | realloc .. | reallocUntracked .. =>
    "kasan::allocator"
  | bumpRegion .. | bumpBlock .. => "kasan::allocator::backend::bump"
  | arena .. => "kasan::shadow::memory::arena"
  | allocateHookFailed .. | reallocateHookFailed .. | freeHookFailed .. | setShadowFailed .. | registerGlobals ..
  | registerGlobalsUninitialized _ | registerGlobalsFailed _ => "kasan::runtime"
  | report _ => "kasan"

def level : Event → Level
  | report _ => .error
  | registerGlobalsUninitialized _ => .warn
  | initialized _ => .info
  | registerGlobals .. => .trace
  | _ => .debug

def text : Event → String
  | poison start len tag => s!"poison - start: {Hex.lower start}, len: {Hex.lower len}, poison: {tag.name}"
  | unpoison start len => s!"unpoison - start: {Hex.lower start}, len: {Hex.lower len}"
  | initialized b =>
    s!"initialized - shadow: {Hex.lower b.shadowStart}-{Hex.lower b.shadowEnd}, low end: {Hex.lower b.lowEnd}, " ++
      s!"high: {Hex.lower b.highStart}-{Hex.lower b.highEnd}"
  | registerGlobal start size padded =>
    s!"register_global - start: {Hex.lower start}, size: {Hex.lower size}, size_with_redzone: {Hex.lower padded}"
  | alloc len => s!"alloc - len: {Hex.lower len}"
  | allocated header user aligned =>
    s!"alloc - header: {Hex.lower header}, user: {Hex.lower user}, aligned: {Hex.lower aligned}"
  | allocUntracked user cause => s!"alloc - user: {Hex.lower user}, untracked: {cause.short}"
  | free user => s!"free - user: {Hex.lower user}"
  | freeUntracked user cause => s!"free - user: {Hex.lower user}, untracked: {cause.short}"
  | realloc user len => s!"realloc - user: {Hex.lower user}, len: {Hex.lower len}"
  | reallocUntracked user cause => s!"realloc - user: {Hex.lower user}, untracked: {cause.short}"
  | bumpRegion start stop align =>
    s!"bump - start: {Hex.lower start}, end: {Hex.lower stop}, align: {Hex.lower align}"
  | bumpBlock block len => s!"bump - carve block: {Hex.lower block}, len: {Hex.lower len}"
  | arena base len shadow =>
    s!"arena - base: {Hex.lower base}, len: {Hex.lower len}, shadow: {Hex.lower shadow}"
  | allocateHookFailed len cause => s!"allocate_hook - len: {Hex.lower len}, error: {cause}"
  | reallocateHookFailed user len cause =>
    s!"reallocate_hook - user: {Hex.lower user}, len: {Hex.lower len}, error: {cause}"
  | freeHookFailed user cause => s!"free_hook - user: {Hex.lower user}, error: {cause}"
  | setShadowFailed shadow len cause =>
    s!"set_shadow - addr: {Hex.lower shadow}, len: {Hex.lower len}, error: {cause.short}"
  | registerGlobals descriptors count =>
    s!"register_globals - globals: {Hex.lower descriptors}, n: {Hex.lower count}"
  | registerGlobalsUninitialized descriptors =>
    s!"register_globals - not initialized, globals: {Hex.lower descriptors}"
  | registerGlobalsFailed cause => s!"register_globals - error: {cause.short}"
  | report line => line.text

/-- the line written for the event -/
def record (e : Event) : Record := ⟨e.tag, e.level, e.text⟩

end Event

end AddressSanitizer
