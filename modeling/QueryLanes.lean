import QueryLanes.Main
import QueryLanes.Rehearsal.Performance
import QueryLanes.Rehearsal.Script
import QueryLanes.Proofs.Wave
import QueryLanes.Proofs.Wiring
import QueryLanes.Proofs.Solo
import QueryLanes.Proofs.Outcomes
import QueryLanes.Proofs.Records
import QueryLanes.Proofs.Deeds
import QueryLanes.Proofs.Aside
import QueryLanes.Proofs.Following
import QueryLanes.Proofs.Issuing
import QueryLanes.Proofs.Steps
import QueryLanes.Proofs.Standing
import QueryLanes.Proofs.Conservation
import QueryLanes.Proofs.Ageing
import QueryLanes.Proofs.Owners
import QueryLanes.Proofs.Supply
import QueryLanes.Proofs.Looks
import QueryLanes.Proofs.Isolation
import QueryLanes.Proofs.Plans
import QueryLanes.Proofs.Spelling
import QueryLanes.Proofs.Canonical
import QueryLanes.Proofs.Collecting
import QueryLanes.Proofs.Sending
import QueryLanes.Proofs.Discipline
import QueryLanes.Proofs.Arriving
import QueryLanes.Proofs.Reckoning
import QueryLanes.Proofs.Closing
import QueryLanes.Proofs.Requests
import QueryLanes.Proofs.Parting
import QueryLanes.Proofs.Paging
import QueryLanes.Proofs.Dialogue
import QueryLanes.Proofs.Draining
import QueryLanes.Proofs.Cutting
import QueryLanes.Proofs.Strays
import QueryLanes.Proofs.Severing
import QueryLanes.Proofs.Serving
import QueryLanes.Proofs.Seating
import QueryLanes.Proofs.Starting
import QueryLanes.Proofs.Progressing
import QueryLanes.Proofs.Failing
import QueryLanes.Proofs.Lifecycle
import QueryLanes.Proofs.Gathering
import QueryLanes.Proofs.Restoring
import QueryLanes.Proofs.Finding
import QueryLanes.Proofs.Lagging
import QueryLanes.Proofs.Undisturbed
import QueryLanes.Proofs.Pending
import QueryLanes.Proofs.Drawing
import QueryLanes.Proofs.Announcing
import QueryLanes.Proofs.Ways
import QueryLanes.Proofs.Releasing
import QueryLanes.Proofs.Fields
import QueryLanes.Proofs.Stopping
import QueryLanes.Proofs.Refusing
import QueryLanes.Proofs.Callbacks
import QueryLanes.Proofs.Tearing
import QueryLanes.Proofs.Prompting
import QueryLanes.Proofs.Looping
import QueryLanes.Proofs.Wording
import QueryLanes.Proofs.Entering
import QueryLanes.Proofs.Settings
