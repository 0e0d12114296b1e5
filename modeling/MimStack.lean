import MimStack.Lib.Text
import MimStack.Lib.IndexMap
import MimStack.Lib.Runs
import MimStack.Lib.Walk
import MimStack.Lib.Saturation
import MimStack.Lib.Sorted
import MimStack.Lib.KeyedLog
import MimStack.Lib.Json
import MimStack.Lib.Lines
import MimStack.Lib.HashChain
import MimStack.Lib.Windows
import MimStack.Lib.Bytes
import MimStack.Lib.Percent
import MimStack.Lib.Outcome
import MimStack.Lib.AsciiCase
import MimStack.Lib.Marks
import MimStack.Lib.Markup
import MimStack.Lib.MarkupReader
import MimStack.Core
import MimStack.Model
import MimStack.Import.Owl
import MimStack.Import.Mapper
import MimStack.Import.Loads
import MimStack.Import.Domains
import MimStack.Import.Classes
import MimStack.Import.Coverage
import MimStack.Runtime
import MimStack.Registry
import MimStack.Serializer
import MimStack.Serializer.RoundTrip
import MimStack.Labeling
import MimStack.Spif
import MimStack.Policy
import MimStack.SpifAdmin
import MimStack.Decisions
import MimStack.Downgrades
import MimStack.Access
import MimStack.Metadata
import MimStack.Audit
import MimStack.Crypto
import MimStack.Trail.Envelope
import MimStack.Trail.Log
import MimStack.Trail.Handles
import MimStack.Trail.Appends
import MimStack.Trail.Atomic
import MimStack.Trail.Worm
import MimStack.Trail.Tamper
import MimStack.Stanag4774
import MimStack.Stanag4774.Decoder
import MimStack.Stanag4774.Categories
import MimStack.Stanag4774.Documents
import MimStack.Stanag4774.RoundTrip
import MimStack.Stanag4778
import MimStack.Stanag4778.Carriers
import MimStack.Stanag4778.Detached
import MimStack.Trail.Contexts
import MimStack.Ztdf
import MimStack.Ztdf.RoundTrip
import MimStack.Dcs.Delivery
import MimStack.Dcs.Guard
import MimStack.Dcs.Config
import MimStack.Dcs.Transfer
import MimStack.Dcs.Receive
import MimStack.Dcs.Records
import MimStack.Dcs.Pairing
import MimStack.Subjects
import MimStack.Transport.Filter
import MimStack.Transport.Broker
import MimStack.Transport.FilterForms
import MimStack.Transport.ClassWalks
import MimStack.Transport.Journal
import MimStack.Transport.Representation
import MimStack.Transport.Persistence
import MimStack.Transport.Replication
import MimStack.Transport.Secured
import MimStack.Transport.Envelope
import MimStack.Transport.Detection
import MimStack.Transport.Rest
import MimStack.Transport.Subscription
import MimStack.Transport.WriteProtection
import MimStack.Transport.QueryView
import MimStack.Transport.Queries
import MimStack.Transport.Federation
import MimStack.Transport.Peers
import MimStack.Http.Notify
import MimStack.Http.Identity
import MimStack.Http.PeerPath
import MimStack.Http.Put
import MimStack.Http.Addressing
import MimStack.Lib.PullMarkup
import MimStack.Lib.Interleaved
import MimStack.Lib.SearchFilter
import MimStack.Spif.Synonyms
import MimStack.Spif.CategoryOrder
import MimStack.Spif.Parser
import MimStack.Spif.Blocks
import MimStack.Spif.BlockOrder
import MimStack.PolicyCalls
import MimStack.SubjectLookups
import MimStack.CertificateNames
import MimStack.LdapFilter
import MimStack.Import.Partition
import MimStack.Import.Properties
import MimStack.Import.OwlXml
import MimStack.Import.OwlChildren
import MimStack.Lib.Padding
import MimStack.Import.CodeLists
import MimStack.QualifiedNames
import MimStack.Lib.ObjectSystems
import MimStack.Lib.Notes
import MimStack.Lib.Batches
import MimStack.Lib.Mirrors
import MimStack.Transport.Objects
import MimStack.Transport.StoreExport
import MimStack.Transport.Audited
import MimStack.Transport.Wire
import MimStack.Http.Exchange
import MimStack.Http.Histories
import MimStack.Http.Disclosure
import MimStack.Http.FederationClient
import MimStack.Http.FederationRuns
import MimStack.RuntimePki
import MimStack.Http.ProductionKeys
import MimStack.Transport.Mutual
import MimStack.Lib.Ledgers
import MimStack.Spif.Loading
import MimStack.PolicyAdministration
import MimStack.Import.Acceptance
import MimStack.Lib.Checkpoints
import MimStack.Transport.Restarts
