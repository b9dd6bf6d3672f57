import FrontEnd.Diagnostic.Log
import FrontEnd.Parser
import FrontEnd.Syntax.Edit
import FrontEnd.Syntax.Visit
import FrontEnd.Proofs.Progress.Termination
import FrontEnd.Proofs.Placement.Separator
import FrontEnd.Proofs.Footing.Reading
import FrontEnd.Proofs.Brackets.Reading
import FrontEnd.Proofs.Lexical.Alone
import FrontEnd.Proofs.Lexical.LineFeed
import FrontEnd.Proofs.Limit.Reading
import FrontEnd.Proofs.Spacing.Lines
import FrontEnd.Proofs.Order.Reading
import FrontEnd.Proofs.Grouping.Whole
import FrontEnd.Proofs.RoundTrip.TypeAlias
import FrontEnd.Proofs.Sequel.Separator
import FrontEnd.Proofs.Source.Counting
import FrontEnd.Proofs.Visit.Whole
import FrontEnd.Proofs.Lexical.Quoted
import FrontEnd.Proofs.Cursor.Moves
import FrontEnd.Proofs.Cursor.Boundary
import FrontEnd.Proofs.RoundTrip.Echo
import FrontEnd.Proofs.RoundTrip.ExpressionText
import FrontEnd.Proofs.RoundTrip.Initializer
import FrontEnd.Proofs.Outline.Parts
import FrontEnd.Proofs.Outline.Lines
import FrontEnd.Proofs.Imports.Reading
import FrontEnd.Proofs.Blocks.Reading
import FrontEnd.Proofs.Header.Modifiers
