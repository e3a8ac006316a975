import MiniPascal.Files.Tree
import MiniPascal.Main
import MiniPascal.Proofs.Scan.Tiling
import MiniPascal.Proofs.Text.Places
import MiniPascal.Proofs.Scan.Soundness
import MiniPascal.Proofs.Diagnostic.Pointing
import MiniPascal.Proofs.Scan.Step
import MiniPascal.Proofs.Numeral.Rounding
import MiniPascal.Proofs.Numeral.Shortest
import MiniPascal.Proofs.Numeral.PlainText
import MiniPascal.Proofs.Numeral.Characters
import MiniPascal.Proofs.Token.WellFormed
import MiniPascal.Proofs.Scan.Iteration
import MiniPascal.Proofs.Dump.Writers
import MiniPascal.Proofs.Scan.Rescan
import MiniPascal.Proofs.Grammar.Lookahead
import MiniPascal.Proofs.Scan.Locality
import MiniPascal.Proofs.Scan.Appending
import MiniPascal.Proofs.Grammar.LetterCase
import MiniPascal.Proofs.Scan.LetterCase
import MiniPascal.Proofs.Grammar.LineEnds
import MiniPascal.Proofs.Scan.LineEnds
import MiniPascal.Proofs.Numeral.Overflow
import MiniPascal.Proofs.Scan.Account
import MiniPascal.Proofs.Program.LexCommand
import MiniPascal.Proofs.Json.Grammar
import MiniPascal.Proofs.Json.Parsing
import MiniPascal.Proofs.Json.Numbers
import MiniPascal.Proofs.Json.Writing
import MiniPascal.Proofs.Token.Decoding
import MiniPascal.Proofs.Numeral.Accumulator
import MiniPascal.Proofs.Numeral.Nearest
import MiniPascal.Proofs.Scan.Literals
import MiniPascal.Proofs.Dump.Unambiguous
import MiniPascal.Proofs.Diagnostic.Underlining
import MiniPascal.Proofs.Scan.Moving
import MiniPascal.Proofs.Scan.Progress
