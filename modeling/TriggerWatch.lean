import TriggerWatch.Event.Draft
import TriggerWatch.Proofs.Allowance
import TriggerWatch.Proofs.Complaint
import TriggerWatch.Proofs.Composition
import TriggerWatch.Proofs.Conformance
import TriggerWatch.Proofs.Cover
import TriggerWatch.Proofs.Failure
import TriggerWatch.Proofs.Hold
import TriggerWatch.Proofs.Independence
import TriggerWatch.Proofs.Likeness
import TriggerWatch.Proofs.Numbering
import TriggerWatch.Proofs.Reentrance
import TriggerWatch.Proofs.Spelling
import TriggerWatch.Proofs.Stopping
import TriggerWatch.Rehearsal.Run
