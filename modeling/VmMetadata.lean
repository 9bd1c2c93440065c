import VmMetadata.Layout.Json
import VmMetadata.Json.Reader
import VmMetadata.Json.Writer
import VmMetadata.Description.Decode
import VmMetadata.Description.Encode
import VmMetadata.Config
import VmMetadata.Inspect.Declaration
import VmMetadata.Inspect.Closing
import VmMetadata.Inspect.Host
import VmMetadata.Inspect.Survey
import VmMetadata.Inspect.Summary
import VmMetadata.Dump.Stamp
import VmMetadata.Command.Run
import VmMetadata.Files.Tree
import VmMetadata.Files.Load
import VmMetadata.Yaml.Property
import VmMetadata.Yaml.Scalar
import VmMetadata.Yaml.Token
import VmMetadata.Main
import VmMetadata.Proofs.Machine.Atomic
import VmMetadata.Proofs.Machine.Permanence
import VmMetadata.Proofs.Dump.Reference
import VmMetadata.Proofs.Session.Client
import VmMetadata.Proofs.Session.Refusal
import VmMetadata.Proofs.Machine.Look
import VmMetadata.Proofs.Session.Finds
import VmMetadata.Proofs.Session.Window
import VmMetadata.Proofs.Dump.Words
import VmMetadata.Proofs.Dump.Items
import VmMetadata.Proofs.Dump.Events
import VmMetadata.Proofs.Dump.History
import VmMetadata.Proofs.Session.Closed
import VmMetadata.Proofs.Session.Unpoisoned
import VmMetadata.Proofs.Dump.Block
import VmMetadata.Proofs.Dump.Segments
import VmMetadata.Proofs.Session.Nulls
import VmMetadata.Proofs.Session.Identity
import VmMetadata.Proofs.Dump.Stops
import VmMetadata.Proofs.Dump.Written
import VmMetadata.Proofs.Session.Misled
import VmMetadata.Proofs.Session.Reported
import VmMetadata.Proofs.Session.Room
import VmMetadata.Proofs.Machine.Parameters
import VmMetadata.Proofs.Session.Composed
import VmMetadata.Proofs.Dump.Misplaced
import VmMetadata.Proofs.Session.Bookkeeping
import VmMetadata.Proofs.Session.Scoped
import VmMetadata.Proofs.Dump.Inside
import VmMetadata.Proofs.Version.Written
import VmMetadata.Proofs.Description.Restored
import VmMetadata.Proofs.Session.Names
import VmMetadata.Proofs.Dump.Precedence
import VmMetadata.Proofs.Dump.Column
import VmMetadata.Proofs.Machine.Isolation
import VmMetadata.Proofs.Command.Agreement
