namespace Phrasebook.Text

-- The code points that only space text out: tabs and line ends, the separators among the control
-- characters, and the spaces of every script.
def blanks : List (Nat × Nat) :=
  [(0x09, 0x0D), (0x1C, 0x20), (0x85, 0x85), (0xA0, 0xA0), (0x1680, 0x1680), (0x2000, 0x200A),
    (0x2028, 0x2029), (0x202F, 0x202F), (0x205F, 0x205F), (0x3000, 0x3000)]

def isBlank (c : Char) : Bool :=
  blanks.any fun (first, last) => first ≤ c.toNat && c.toNat ≤ last

-- The blanks that are not separators among the control characters.
def isSpace (c : Char) : Bool :=
  isBlank c && !(0x1C ≤ c.toNat && c.toNat ≤ 0x1F)

def trimmedOf (blank : Char → Bool) (text : List Char) : List Char :=
  ((text.dropWhile blank).reverse.dropWhile blank).reverse

def trimmed (text : List Char) : List Char :=
  trimmedOf isBlank text

def trim (text : String) : String :=
  String.ofList (trimmed text.toList)

end Phrasebook.Text
