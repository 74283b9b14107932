import LoxReader.Place
import LoxReader.Command.Answer
import LoxReader.Main
import LoxReader.Proofs.Grammar.Exact
import LoxReader.Proofs.Lexical.Lexeme
import LoxReader.Proofs.Lexical.Piece
import LoxReader.Proofs.Lexical.Tiling
import LoxReader.Proofs.Grammar.Diagnosis
import LoxReader.Proofs.Grammar.FirstFailure
import LoxReader.Proofs.Grammar.Alike
import LoxReader.Proofs.Lexical.Written
import LoxReader.Proofs.Printing.RoundTrip
import LoxReader.Proofs.Lexical.Longest
import LoxReader.Proofs.Lexical.Division
import LoxReader.Proofs.Grammar.Simulation
import LoxReader.Proofs.Grammar.Outline
import LoxReader.Proofs.Layout.Independence
import LoxReader.Proofs.Lexical.Blanking
import LoxReader.Proofs.Place.Split
import LoxReader.Proofs.Printing.Injectivity
import LoxReader.Proofs.Lexical.Joining
import LoxReader.Proofs.Safety.Process
import LoxReader.Proofs.Command.Writing
import LoxReader.Proofs.Number.Magnitude
import LoxReader.Proofs.Number.Nearest
import LoxReader.Proofs.Number.Numeral
import LoxReader.Proofs.Number.Correct
import LoxReader.Proofs.Number.Digits
import LoxReader.Proofs.Number.Shortest
import LoxReader.Proofs.Text.Escapes
import LoxReader.Proofs.Command.Fidelity
import LoxReader.Proofs.Layout.LineEnds
import LoxReader.Proofs.Place.Slices
import LoxReader.Proofs.Command.Reports
import LoxReader.Proofs.Safety.Rules
import LoxReader.Proofs.Printing.Height
