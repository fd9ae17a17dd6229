import FileSharing.Contact
import FileSharing.Content
import FileSharing.EventLoop
import FileSharing.Identifier
import FileSharing.ListenerSet
import FileSharing.Run
import FileSharing.Scenario.Run
import FileSharing.Settings
import FileSharing.Sip.Dialog
import FileSharing.Sip.Reader
import FileSharing.Proofs.Action
import FileSharing.Proofs.Growth
import FileSharing.Proofs.Steps
import FileSharing.Proofs.Life
import FileSharing.Proofs.Course
import FileSharing.Proofs.Endings
import FileSharing.Proofs.Refinement
import FileSharing.Proofs.Claiming
import FileSharing.Proofs.Registration
import FileSharing.Proofs.Entries
import FileSharing.Proofs.Departures
import FileSharing.Proofs.Discretion
import FileSharing.Proofs.Routing
import FileSharing.Proofs.Driving
import FileSharing.Proofs.Refreshes
import FileSharing.Proofs.HangingUp
import FileSharing.Proofs.Answering
import FileSharing.Proofs.Relaying
import FileSharing.Proofs.Mirroring
import FileSharing.Proofs.Slots
import FileSharing.Proofs.Saving
import FileSharing.Proofs.Peers
import FileSharing.Proofs.Schedules
import FileSharing.Proofs.Telling
import FileSharing.Proofs.Editing
import FileSharing.Proofs.Loading
import FileSharing.Proofs.Refusals
import FileSharing.Proofs.Fanouts
import FileSharing.Proofs.Layout
import FileSharing.Proofs.Responding
import FileSharing.Proofs.Numbering
import FileSharing.Proofs.Contacts
import FileSharing.Proofs.PhoneNumbers
import FileSharing.Proofs.Draining
import FileSharing.Proofs.Roaming
import FileSharing.Proofs.Mistyped
import FileSharing.Proofs.Untouched
import FileSharing.Proofs.Stripping
import FileSharing.Proofs.Filling
