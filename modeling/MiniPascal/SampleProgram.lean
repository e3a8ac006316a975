/-!
# The Sample Program

A program that shows every reserved word and most of the marks of the language.
-/

namespace MiniPascal

def sampleLines : List String :=
  ["PROGRAM Part10;",
   "VAR",
   "   number     : INTEGER;",
   "   a, b, c, x : INTEGER;",
   "   y          : REAL;",
   "",
   "PROCEDURE P1;",
   "VAR",
   "   a : REAL;",
   "BEGIN \x7bP1\x7d",
   "   a := 10.5",
   "END;  \x7bP1\x7d",
   "",
   "BEGIN \x7bPart10\x7d",
   "   BEGIN",
   "      number := 2;",
   "      a := number;",
   "      b := 10 * a + 10 * number DIV 4;",
   "      c := a - - b",
   "   END;",
   "   x := 11;",
   "   y := 20 / 7 + 3.25;",
   "END.  \x7bPart10\x7d"]

/-- The sample program; each of its lines ends with a line feed. -/
def sampleProgram : String :=
  String.join (sampleLines.map (· ++ "\n"))

end MiniPascal
