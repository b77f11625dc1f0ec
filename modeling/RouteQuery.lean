import RouteQuery.App
import RouteQuery.CommandLine
import RouteQuery.Context
import RouteQuery.Descriptor
import RouteQuery.Dispatch
import RouteQuery.Document
import RouteQuery.Escape
import RouteQuery.Execution
import RouteQuery.Fault
import RouteQuery.Hook
import RouteQuery.Http.BodyParser
import RouteQuery.Http.ByteLimit
import RouteQuery.Http.ByteRange
import RouteQuery.Http.ContentCoding
import RouteQuery.Http.Form
import RouteQuery.Http.MediaType
import RouteQuery.Http.Message
import RouteQuery.Http.StaticFiles
import RouteQuery.Http.Uri
import RouteQuery.Json.Basic
import RouteQuery.Json.Binary64
import RouteQuery.Json.Parse
import RouteQuery.Json.Render
import RouteQuery.Json.Shortest
import RouteQuery.Lexeme
import RouteQuery.Main
import RouteQuery.Materialize
import RouteQuery.PathMatcher
import RouteQuery.PathTemplate
import RouteQuery.Pattern.Basic
import RouteQuery.Pattern.Build
import RouteQuery.Pattern.Category
import RouteQuery.Pattern.Parse
import RouteQuery.Pattern.Property
import RouteQuery.Pattern.Script
import RouteQuery.QueryText
import RouteQuery.Ready
import RouteQuery.Registry
import RouteQuery.RoutePath
import RouteQuery.Schema
import RouteQuery.Settings
import RouteQuery.Shutdown
import RouteQuery.Site
import RouteQuery.Registration
import RouteQuery.SocketAddress
import RouteQuery.StockTasks
import RouteQuery.Task
import RouteQuery.Text.Basic
import RouteQuery.Text.CharTables
import RouteQuery.Text.Folding
import RouteQuery.Text.Utf8
import RouteQuery.Toml.Document
import RouteQuery.Toml.Scalar
import RouteQuery.Toml.Table
import RouteQuery.Toml.Text
import RouteQuery.Verb
import RouteQuery.Vocabulary
import RouteQuery.Workspace
import RouteQuery.Proofs.Words
import RouteQuery.Proofs.Lines
import RouteQuery.Proofs.AsciiBytes
import RouteQuery.Proofs.StrictJson
import RouteQuery.Proofs.PathExtraction
import RouteQuery.Proofs.FirstOccurrence
import RouteQuery.Proofs.Outcomes
import RouteQuery.Proofs.Escaping
import RouteQuery.Proofs.Lexing
import RouteQuery.Proofs.SchemaPrinting
import RouteQuery.Proofs.DocumentPrinting
import RouteQuery.Proofs.DocumentReading
import RouteQuery.Proofs.Answering
import RouteQuery.Proofs.Announcing
import RouteQuery.Proofs.Registering
import RouteQuery.Proofs.Reachable
import RouteQuery.Proofs.QueryPrinting
import RouteQuery.Proofs.RouteBlocks
import RouteQuery.Proofs.Compilation
import RouteQuery.Proofs.Atomicity
import RouteQuery.Proofs.BuiltinHooks
import RouteQuery.Proofs.HistoryIndependence
import RouteQuery.Proofs.TaskPlans
import RouteQuery.Proofs.DispatchStack
import RouteQuery.Proofs.BodyParsing
import RouteQuery.Proofs.SchemaInStep
import RouteQuery.Proofs.Routable
import RouteQuery.Proofs.Materializing
import RouteQuery.Proofs.ParamTable
import RouteQuery.Proofs.ParamNames
import RouteQuery.Proofs.ParamChains
import RouteQuery.Proofs.Refusing
import RouteQuery.Proofs.AnsweredRoutes
import RouteQuery.Proofs.Accepting
import RouteQuery.Proofs.UnreachableFaults
import RouteQuery.Proofs.CommittedParams
import RouteQuery.Proofs.Splitting
import RouteQuery.Proofs.Listening
import RouteQuery.Proofs.EscapeRoundTrip
import RouteQuery.Proofs.DistinctRoutes
import RouteQuery.Proofs.RouteKinds
import RouteQuery.Proofs.ExtractedPaths
import RouteQuery.Proofs.Matching
import RouteQuery.Proofs.Anchoring
import RouteQuery.Proofs.PathPatterns
import RouteQuery.Proofs.PieceMatches
import RouteQuery.Proofs.SegmentRoutes
import RouteQuery.Proofs.MountBoundaries
import RouteQuery.Proofs.RequestTargets
import RouteQuery.Proofs.StaticMounts
import RouteQuery.Proofs.DirectoryPaths
import RouteQuery.Proofs.StaticRedirects
import RouteQuery.Proofs.TrailingSlashes
import RouteQuery.Proofs.CaptureGroups
import RouteQuery.Proofs.WrittenPatterns
import RouteQuery.Proofs.QueryPatterns
import RouteQuery.Proofs.DistinctKeys
import RouteQuery.Proofs.Tokenizing
import RouteQuery.Proofs.QueryGrammar
import RouteQuery.Proofs.SchemaGrammar
import RouteQuery.Proofs.ValidSelections
import RouteQuery.Proofs.TypedAnswers
import RouteQuery.Proofs.MergedSelections
import RouteQuery.Proofs.DescriptorDelimiters
import RouteQuery.Proofs.DescriptorPrinting
import RouteQuery.Proofs.FaultPlaces
import RouteQuery.Proofs.LineByLine
import RouteQuery.Proofs.ParamHistory
import RouteQuery.Proofs.RefusedRegistrations
import RouteQuery.Proofs.TaskHandlers
import RouteQuery.Proofs.CommandOutput
import RouteQuery.Proofs.OffendingTokens
import RouteQuery.Proofs.DocumentFaults
import RouteQuery.Proofs.SchemaFaults
import RouteQuery.Proofs.DocumentChoice
import RouteQuery.Proofs.SchemaChoice
