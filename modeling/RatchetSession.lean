import RatchetSession.Suite.Standard
import RatchetSession.Summary
import RatchetSession.Simulation.Network
import RatchetSession.Simulation.Reference
import RatchetSession.Simulation.Scenario
import RatchetSession.Proofs.Computation
import RatchetSession.Proofs.Store.Calls
import RatchetSession.Proofs.Conversation.Atomic
import RatchetSession.Proofs.Cbor.Framing
import RatchetSession.Proofs.Message.Framing
import RatchetSession.Proofs.Session.Framing
import RatchetSession.Proofs.Conversation.Establish
import RatchetSession.Proofs.Entropy.Draws
import RatchetSession.Proofs.Session.Chain
import RatchetSession.Proofs.Session.Dialogue
import RatchetSession.Proofs.Handshake.Agreement
import RatchetSession.Proofs.Conversation.Delivery
import RatchetSession.Proofs.Exchange.Ledger
import RatchetSession.Proofs.Session.Unheard
import RatchetSession.Proofs.Exchange.Progress
import RatchetSession.Proofs.Exchange.Sending
import RatchetSession.Proofs.Exchange.Receiving
import RatchetSession.Proofs.Exchange.Opening
import RatchetSession.Proofs.Message.Size
import RatchetSession.Proofs.Simulation.Network
import RatchetSession.Proofs.Simulation.Creation
import RatchetSession.Proofs.Session.Binding
import RatchetSession.Proofs.Exchange.Mail
import RatchetSession.Proofs.Exchange.Parties
import RatchetSession.Proofs.Simulation.Refinement
import RatchetSession.Proofs.Simulation.Pair
import RatchetSession.Simulation.Exchange
import RatchetSession.Proofs.Simulation.Exchange
import RatchetSession.Proofs.Message.Canonical
import RatchetSession.Entropy.Recorder
import RatchetSession.Proofs.Session.Step
import RatchetSession.Proofs.Session.Opener
import RatchetSession.Proofs.Handshake.Start
import RatchetSession.Proofs.Conversation.Effect
import RatchetSession.Proofs.Entropy.Recorder
import RatchetSession.Proofs.Conversation.Journal
import RatchetSession.Proofs.Conversation.Recorded
import RatchetSession.Proofs.Session.Account
import RatchetSession.Proofs.Conversation.Counting
import RatchetSession.Proofs.Session.Spent
import RatchetSession.Proofs.Session.Anchored
import RatchetSession.Proofs.Conversation.Succession
import RatchetSession.Proofs.Conversation.Replay
import RatchetSession.Proofs.Conversation.Trust
import RatchetSession.Proofs.Session.WellFormed
import RatchetSession.Proofs.Conversation.Bounded
import RatchetSession.Proofs.Session.Chains
import RatchetSession.Proofs.Session.Attendance
import RatchetSession.Proofs.Session.Holds
import RatchetSession.Proofs.Conversation.FirstContact
import RatchetSession.Simulation.Correspondence
import RatchetSession.Proofs.Session.Genuine
import RatchetSession.Proofs.Correspondence.Outbox
import RatchetSession.Proofs.Correspondence.Course
import RatchetSession.Proofs.Correspondence.Run
import RatchetSession.Proofs.Correspondence.Lockstep
import RatchetSession.Proofs.Session.Dispenser
import RatchetSession.Proofs.Session.Eviction
import RatchetSession.Proofs.Session.Pending
import RatchetSession.Proofs.Conversation.Descent
import RatchetSession.Proofs.Conversation.OneTime
import RatchetSession.Proofs.Session.Selection
import RatchetSession.Proofs.Session.Live
import RatchetSession.Proofs.Session.Reached
import RatchetSession.Proofs.Session.Interleaving
import RatchetSession.Proofs.Conversation.Movement
import RatchetSession.Proofs.Party.Failure
import RatchetSession.Proofs.Message.Delimited
