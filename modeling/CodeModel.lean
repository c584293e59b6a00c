import CodeModel.FreezeState
import CodeModel.Json.Stored
import CodeModel.Logging
import CodeModel.Proofs.Logging
import CodeModel.Proofs.Region
import CodeModel.Proofs.Session.Accounts
import CodeModel.Proofs.Session.Acyclic
import CodeModel.Proofs.Session.Canonical
import CodeModel.Proofs.Session.Closure
import CodeModel.Proofs.Session.Contents
import CodeModel.Proofs.Session.Contract
import CodeModel.Proofs.Session.Copies
import CodeModel.Proofs.Session.Depth
import CodeModel.Proofs.Session.Failure
import CodeModel.Proofs.Session.Freezing
import CodeModel.Proofs.Session.Isolation
import CodeModel.Proofs.Session.Listing
import CodeModel.Proofs.Session.Lists
import CodeModel.Proofs.Session.Lookups
import CodeModel.Proofs.Session.Members
import CodeModel.Proofs.Session.Mutators
import CodeModel.Proofs.Session.PoolUses
import CodeModel.Proofs.Session.Protocol
import CodeModel.Proofs.Session.Rendering
import CodeModel.Proofs.Session.Residue
import CodeModel.Proofs.Session.Seeding
import CodeModel.Proofs.Session.Sharing
import CodeModel.Proofs.Session.Snapshot
import CodeModel.Proofs.Session.Stability
import CodeModel.Proofs.Session.Unfolding
import CodeModel.Proofs.Text.Literals
import CodeModel.Proofs.Text.Options
