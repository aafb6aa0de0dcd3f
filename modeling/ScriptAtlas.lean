import ScriptAtlas.Text.Quoted
import ScriptAtlas.Outline.Projection
import ScriptAtlas.Project.Worker
import ScriptAtlas.Json.Options
import ScriptAtlas.Listing.Reader
import ScriptAtlas.Directory.Scan
import ScriptAtlas.Proofs.Line.AssignedValue
import ScriptAtlas.Proofs.Outline.BlankLines
import ScriptAtlas.Proofs.Project.LastWrite
import ScriptAtlas.Proofs.Script.Ancestry
import ScriptAtlas.Proofs.Script.Lines
import ScriptAtlas.Proofs.Json.Containers
import ScriptAtlas.Proofs.Listing.RoundTrip
import ScriptAtlas.Proofs.Json.Printing
import ScriptAtlas.Proofs.Listing.Faithful
import ScriptAtlas.Proofs.Script.Preorder
import ScriptAtlas.Proofs.Line.Classification
import ScriptAtlas.Proofs.Project.Coherence
import ScriptAtlas.Proofs.Symbol.Edits
import ScriptAtlas.Proofs.Search.Verbatim
import ScriptAtlas.Proofs.Symbol.OptionEntries
import ScriptAtlas.Proofs.Symbol.Names
import ScriptAtlas.Proofs.Text.Erasure
import ScriptAtlas.Proofs.Outline.Nesting
import ScriptAtlas.Proofs.Script.Continuation
import ScriptAtlas.Proofs.Script.FollowedBy
import ScriptAtlas.Proofs.Script.TopLevelBlocks
import ScriptAtlas.Proofs.Script.CountedEntries
import ScriptAtlas.Proofs.Script.LineByLine
import ScriptAtlas.Proofs.Script.Encoding
import ScriptAtlas.Proofs.Script.BlankLines
import ScriptAtlas.Proofs.Script.LetterCase
import ScriptAtlas.Proofs.Project.Shutdown
import ScriptAtlas.Proofs.Symbol.Outlined
import ScriptAtlas.Proofs.Line.NestedParameters
import ScriptAtlas.Proofs.Line.ReturnClause
import ScriptAtlas.Proofs.Line.VariablePath
import ScriptAtlas.Proofs.Line.TrailingComment
import ScriptAtlas.Proofs.Symbol.TrailingComments
import ScriptAtlas.Proofs.Script.CommentedLine
import ScriptAtlas.Proofs.Outline.SignatureLabel
import ScriptAtlas.Proofs.Line.CallShape
import ScriptAtlas.Proofs.Text.PrintedLines
import ScriptAtlas.Proofs.Outline.Rendering
import ScriptAtlas.Proofs.Script.Dump
import ScriptAtlas.Proofs.Directory.Visiting
import ScriptAtlas.Proofs.Directory.Scripts
import ScriptAtlas.Proofs.Json.Grammar
import ScriptAtlas.Proofs.Json.Skipping
import ScriptAtlas.Proofs.Json.Confinement
import ScriptAtlas.Proofs.Json.Members
import ScriptAtlas.Proofs.Json.Overlay
import ScriptAtlas.Proofs.Json.Defaults
