import PhpAudit.Reader.Program
import PhpAudit.Tree.Outline
import PhpAudit.Tree.Walk
import PhpAudit.Measure.Branching
import PhpAudit.Receiver.Tracker
import PhpAudit.Json.Reader
import PhpAudit.Json.Writer
import PhpAudit.Text.Capital
import PhpAudit.Text.Printable
import PhpAudit.Text.Quoted
import PhpAudit.Text.Lines
import PhpAudit.Text.LineIndex
import PhpAudit.Log
import PhpAudit.Check.Catalogue
import PhpAudit.Audit
import PhpAudit.Report.Summary
import PhpAudit.Files.Discovery
import PhpAudit.Command.Run
import PhpAudit.Main
import PhpAudit.Proofs.Traversal
import PhpAudit.Proofs.ReceiverCalls
import PhpAudit.Proofs.SealedWalks
import PhpAudit.Proofs.ScopeIsolation
import PhpAudit.Proofs.Reading
import PhpAudit.Proofs.LoopHeaders
import PhpAudit.Proofs.ClauseWords
import PhpAudit.Proofs.DanglingElse
import PhpAudit.Proofs.AccessChains
import PhpAudit.Proofs.OperandShapes
import PhpAudit.Proofs.SourcePlaces
import PhpAudit.Proofs.SitedExpressions
import PhpAudit.Proofs.SitedStatements
import PhpAudit.Proofs.NearestElse
import PhpAudit.Proofs.SourceOrder
import PhpAudit.Proofs.RuleSelection
import PhpAudit.Proofs.WalkSteps
import PhpAudit.Proofs.Respelling
import PhpAudit.Proofs.RespelledWalks
import PhpAudit.Proofs.ReflexiveWords
import PhpAudit.Proofs.WalkTraces
import PhpAudit.Proofs.LastWrites
import PhpAudit.Proofs.CallChains
import PhpAudit.Proofs.CallCoverage
import PhpAudit.Proofs.FindingPlaces
import PhpAudit.Proofs.ViolationLines
import PhpAudit.Proofs.QualifiedNames
import PhpAudit.Proofs.Pieces
import PhpAudit.Proofs.KeptRules
import PhpAudit.Proofs.LongPieces
import PhpAudit.Proofs.KeptOperators
import PhpAudit.Proofs.TwinReading
import PhpAudit.Proofs.BareOutlines
import PhpAudit.Proofs.OperationTrees
import PhpAudit.Proofs.TwinParts
import PhpAudit.Proofs.TwinExpressions
import PhpAudit.Proofs.TwinStatements
import PhpAudit.Proofs.CommentGaps
import PhpAudit.Proofs.CommentedPrograms
import PhpAudit.Proofs.EntryTables
import PhpAudit.Proofs.SettingsMerge
import PhpAudit.Proofs.CatalogueRuns
import PhpAudit.Proofs.ScanInterleavings
import PhpAudit.Proofs.PlainTexts
import PhpAudit.Proofs.Utf8Encoding
import PhpAudit.Proofs.ResultTotals
import PhpAudit.Proofs.FilePositions
import PhpAudit.Proofs.JsonTokens
import PhpAudit.Proofs.JsonText
import PhpAudit.Proofs.ConfigurationFiles
import PhpAudit.Proofs.Grammar
import PhpAudit.Proofs.GrammarRules
import PhpAudit.Proofs.NamespaceHeaders
import PhpAudit.Proofs.FollowedForms
import PhpAudit.Proofs.FollowedMembers
import PhpAudit.Proofs.FollowedExpressions
import PhpAudit.Proofs.FollowedStatements
import PhpAudit.Proofs.ParsingEnds
import PhpAudit.Proofs.NamespaceBodies
import PhpAudit.Proofs.NamespaceExtents
import PhpAudit.Proofs.OperatorGroupings
import PhpAudit.Proofs.MethodTables
import PhpAudit.Proofs.LineIndexing
import PhpAudit.Proofs.OpeningTags
import PhpAudit.Proofs.Descendants
import PhpAudit.Proofs.BranchCounts
import PhpAudit.Proofs.BranchOrder
import PhpAudit.Proofs.BranchInsertion
import PhpAudit.Proofs.MethodScopes
import PhpAudit.Proofs.VisitOrder
import PhpAudit.Proofs.LiteralValues
import PhpAudit.Proofs.ReportContents
import PhpAudit.Proofs.FileDiscovery
import PhpAudit.Proofs.ListingOrders
import PhpAudit.Proofs.CanonicalHints
import PhpAudit.Proofs.ForeignReceivers
