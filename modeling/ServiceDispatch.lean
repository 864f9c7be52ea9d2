import ServiceDispatch.BuildScript
import ServiceDispatch.Dispatch
import ServiceDispatch.Host
import ServiceDispatch.Main
import ServiceDispatch.ServiceAttribute
import ServiceDispatch.Session
import ServiceDispatch.Proofs.Emission.Execution
import ServiceDispatch.Proofs.Emission.Reading
import ServiceDispatch.Proofs.Emission.ReadBack
import ServiceDispatch.Proofs.Emission.Refinement
import ServiceDispatch.Proofs.Lookup.Limit
import ServiceDispatch.Proofs.Lookup.AtLimit
import ServiceDispatch.Proofs.Soundness.CratePath
import ServiceDispatch.Proofs.Soundness.Scopes
import ServiceDispatch.Proofs.Soundness.Occurrences
import ServiceDispatch.Proofs.Soundness.Visibilities
import ServiceDispatch.Proofs.Selection.Partition
import ServiceDispatch.Proofs.Soundness.Rules
import ServiceDispatch.Proofs.Feed.Privacy
import ServiceDispatch.Proofs.Resolution.Agreement
import ServiceDispatch.Proofs.Feed.TestOnly
import ServiceDispatch.Proofs.Resolution.Anchors
import ServiceDispatch.Proofs.Resolution.Parts
import ServiceDispatch.Proofs.Resolution.Paths
import ServiceDispatch.Proofs.Resolution.Written
import ServiceDispatch.Proofs.Reading.Lexing
import ServiceDispatch.Proofs.Reading.Readers
import ServiceDispatch.Proofs.Feed.Elsewhere
import ServiceDispatch.Proofs.Reading.Types
import ServiceDispatch.Proofs.Reading.Spelling
import ServiceDispatch.Proofs.Resolution.Legible
import ServiceDispatch.Proofs.Reading.Numerals
import ServiceDispatch.Proofs.Resolution.Elsewhere
import ServiceDispatch.Proofs.Feed.Tables
import ServiceDispatch.Proofs.Feed.Order
import ServiceDispatch.Proofs.Feed.Members
import ServiceDispatch.Proofs.Files.ModulePaths
import ServiceDispatch.Proofs.Files.Walking
import ServiceDispatch.Proofs.Feed.TestModules
import ServiceDispatch.Proofs.Regeneration.Avoiding
import ServiceDispatch.Proofs.Selection.Resolvers
import ServiceDispatch.Proofs.Regeneration.Feeds
import ServiceDispatch.Proofs.Regeneration.Crates
import ServiceDispatch.Proofs.Regeneration.Fixpoint
import ServiceDispatch.Proofs.Reading.Blocks
import ServiceDispatch.Proofs.Reading.Exprs
import ServiceDispatch.Proofs.Reading.ExprSpelling
import ServiceDispatch.Proofs.Reading.Statements
import ServiceDispatch.Proofs.Reading.Branches
import ServiceDispatch.Proofs.Reading.Functions
import ServiceDispatch.Proofs.Reading.Files
import ServiceDispatch.Proofs.Regeneration.Rereading
import ServiceDispatch.Proofs.Regeneration.LegibleRules
import ServiceDispatch.Proofs.Files.Contents
import ServiceDispatch.Proofs.Sessions.History
import ServiceDispatch.Proofs.Lookup.ImportOrder
import ServiceDispatch.Proofs.Lookup.OtherNames
import ServiceDispatch.Proofs.Resolution.PathAliases
import ServiceDispatch.Proofs.Markers.Arguments
import ServiceDispatch.Proofs.Hosting.Crate
import ServiceDispatch.Proofs.Hosting.Accounts
import ServiceDispatch.Proofs.Resolution.Closed
import ServiceDispatch.Proofs.Soundness.Constructors
import ServiceDispatch.Proofs.Emission.Calls
import ServiceDispatch.Proofs.Conditions.Configurations
import ServiceDispatch.Proofs.Selection.Shapes
import ServiceDispatch.Proofs.Feed.Attachment
import ServiceDispatch.Proofs.Selection.Sizes
import ServiceDispatch.Proofs.Emission.TableReading
import ServiceDispatch.Proofs.Files.Places
import ServiceDispatch.Proofs.Feed.UseTrees
import ServiceDispatch.Proofs.Feed.ModuleFiles
import ServiceDispatch.Proofs.Soundness.PathTree
import ServiceDispatch.Proofs.Emission.Indentation
import ServiceDispatch.Proofs.Printing.Settled
import ServiceDispatch.Proofs.Printing.Kept
import ServiceDispatch.Proofs.Printing.Passing
import ServiceDispatch.Proofs.Printing.Readers
import ServiceDispatch.Proofs.Printing.Paths
import ServiceDispatch.Proofs.Printing.Types
import ServiceDispatch.Proofs.Printing.Signatures
import ServiceDispatch.Proofs.Printing.Exprs
import ServiceDispatch.Proofs.Printing.Items
import ServiceDispatch.Proofs.Markers.HandedBack
