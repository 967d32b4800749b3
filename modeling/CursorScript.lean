import CursorScript.Main
import CursorScript.Machine.Trace
import CursorScript.Session
import CursorScript.Proofs.FaultPlaces
import CursorScript.Proofs.Refinement
import CursorScript.Proofs.StaticLinks
import CursorScript.Proofs.Suspension
import CursorScript.Proofs.Lifecycle
import CursorScript.Proofs.Registry
import CursorScript.Proofs.GrammarAlike
import CursorScript.Proofs.AnalysisAlike
import CursorScript.Proofs.MachineAlike
import CursorScript.Proofs.Printer
import CursorScript.Proofs.RoundTrip
import CursorScript.Proofs.PendingWork
import CursorScript.Proofs.Lexemes
import CursorScript.Proofs.Marshaling
import CursorScript.Proofs.Answers
import CursorScript.Proofs.Animation
import CursorScript.Proofs.NameResolution
import CursorScript.Proofs.EarlyEnds
import CursorScript.Proofs.TypeSyntax
import CursorScript.Proofs.NameMaps
import CursorScript.Proofs.Overloads
import CursorScript.Proofs.Commands
import CursorScript.Proofs.TextLiterals
import CursorScript.Proofs.DefiniteAnalysis
import CursorScript.Proofs.Suggestions
import CursorScript.Proofs.Maps
import CursorScript.Proofs.CommonTypes
import CursorScript.Proofs.SpanNesting
import CursorScript.Proofs.TextPlaces
import CursorScript.Proofs.TextCasts
import CursorScript.Proofs.ErrorRendering
import CursorScript.Proofs.Termination
import CursorScript.Proofs.LineFinders
