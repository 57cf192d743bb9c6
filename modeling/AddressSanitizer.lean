import AddressSanitizer.Arena
import AddressSanitizer.Heap.Bump
import AddressSanitizer.Heap.Scripted
import AddressSanitizer.Proofs.ArenaShadow
import AddressSanitizer.Proofs.BlockSizes
import AddressSanitizer.Proofs.BumpRoom
import AddressSanitizer.Proofs.BumpRuns
import AddressSanitizer.Proofs.BumpStack
import AddressSanitizer.Proofs.EarlyHooks
import AddressSanitizer.Proofs.GlobalRedzones
import AddressSanitizer.Proofs.HeapSafety
import AddressSanitizer.Proofs.LifeCycle
import AddressSanitizer.Proofs.Quarantine
import AddressSanitizer.Proofs.RefusedResizing
import AddressSanitizer.Proofs.ReportLimit
import AddressSanitizer.Proofs.ShadowUpdates
import AddressSanitizer.Proofs.UntrackedBlocks
import AddressSanitizer.Sanitizer.MemoryHooks
import AddressSanitizer.Shadow.Lemmas
