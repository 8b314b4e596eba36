import MasternodePayments.Listing
import MasternodePayments.Main
import MasternodePayments.Node.Run
import MasternodePayments.Proofs.Horizon
import MasternodePayments.Proofs.Quorum
import MasternodePayments.Proofs.Restart
import MasternodePayments.Template
import MasternodePayments.Validation
import MasternodePayments.Proofs.Ledger.Tallied
import MasternodePayments.Proofs.Ledger.Batch
import MasternodePayments.Proofs.Announcing
import MasternodePayments.Proofs.Arrival
import MasternodePayments.Proofs.Synchronisation
import MasternodePayments.Proofs.Template.Payments
import MasternodePayments.Proofs.Template.Agreement
import MasternodePayments.Proofs.Template.Value
import MasternodePayments.Proofs.Template.Own
import MasternodePayments.Proofs.Template.Deduction
import MasternodePayments.Proofs.Template.Mints
import MasternodePayments.Proofs.Codec.Lawful
import MasternodePayments.Proofs.PaidTiers
import MasternodePayments.Proofs.Snapshot.RoundTrip
import MasternodePayments.Proofs.Snapshot.Grammar
import MasternodePayments.Proofs.Reload
import MasternodePayments.Proofs.Overflow
import MasternodePayments.Proofs.Requests
import MasternodePayments.Proofs.Ledger.Gains
import MasternodePayments.Proofs.Relay
import MasternodePayments.Proofs.Capacity
import MasternodePayments.Proofs.Saving
import MasternodePayments.Proofs.Payees
import MasternodePayments.Proofs.Pruning
import MasternodePayments.Proofs.Atomicity
import MasternodePayments.Proofs.Vote.Layout
import MasternodePayments.Proofs.Vote.Preimage
import MasternodePayments.Proofs.PayeeForms
import MasternodePayments.Proofs.Ledger.Refusal
import MasternodePayments.Proofs.Template.Placement
import MasternodePayments.Proofs.Tally.Verdict
import MasternodePayments.Proofs.Tally.Leadership
import MasternodePayments.Proofs.Maintenance
import MasternodePayments.Proofs.Casting
import MasternodePayments.Proofs.Proposals
import MasternodePayments.Proofs.Minting
import MasternodePayments.Proofs.Resaving
import MasternodePayments.Proofs.Rotation
import MasternodePayments.Proofs.Views
import MasternodePayments.Proofs.Addresses
import MasternodePayments.Proofs.Lookups
