import Phrasebook.Plural.Rule

namespace Phrasebook.Plural.Builtin

def endsInFew (n : Int) : Bool :=
  2 ≤ n % 10 && n % 10 ≤ 4 && (n % 100 < 10 || 20 ≤ n % 100)

def endsInOne (n : Int) : Bool :=
  n % 10 == 1 && n % 100 != 11

def aboveOne : Rule where
  numbers := [1, 2]
  form n := if n > 1 then 1 else 0

def notOne : Rule where
  numbers := [1, 2]
  form n := if n ≠ 1 then 1 else 0

def single : Rule where
  numbers := [1]
  form _ := 0

def slavic : Rule where
  numbers := [1, 2, 5]
  form n := if endsInOne n then 0 else if endsInFew n then 1 else 2

def polish : Rule where
  numbers := [1, 2, 5]
  form n := if n = 1 then 0 else if endsInFew n then 1 else 2

def czech : Rule where
  numbers := [1, 2, 5]
  form n := if n = 1 then 0 else if 2 ≤ n ∧ n ≤ 4 then 1 else 2

def arabic : Rule where
  numbers := [0, 1, 2, 3, 11, 100]
  form n :=
    if n = 0 ∨ n = 1 ∨ n = 2 then n
    else if 3 ≤ n % 100 ∧ n % 100 ≤ 10 then 3
    else if 11 ≤ n % 100 then 4
    else 5

def icelandic : Rule where
  numbers := [1, 2]
  form n := if endsInOne n then 0 else 1

def lithuanian : Rule where
  numbers := [1, 2, 10]
  form n :=
    if endsInOne n then 0
    else if 2 ≤ n % 10 ∧ (n % 100 < 10 ∨ 20 ≤ n % 100) then 1
    else 2

def latvian : Rule where
  numbers := [1, 2, 0]
  form n := if endsInOne n then 0 else if n ≠ 0 then 1 else 2

def groups : List (List String × Rule) :=
  [(["ach", "ak", "am", "arn", "br", "fil", "fr", "gun", "ln", "mfe", "mg", "mi", "oc", "pt-BR",
      "tg", "tl", "ti", "tr", "uz", "wa"], aboveOne),
    (["af", "an", "ast", "az", "bg", "bn", "ca", "da", "de", "el", "en", "eo", "es", "et", "eu",
      "fi", "fo", "fur", "fy", "gl", "gu", "ha", "hi", "hu", "hy", "ia", "it", "kk", "kn", "ku",
      "lb", "mai", "ml", "mn", "mr", "nah", "nap", "nb", "ne", "nl", "nn", "no", "nso", "pa",
      "pap", "pms", "ps", "pt", "rm", "sco", "se", "si", "so", "son", "sq", "sv", "sw", "ta",
      "te", "tk", "ur", "yo"], notOne),
    (["ay", "bo", "cgg", "fa", "ht", "id", "ja", "jbo", "ka", "km", "ko", "ky", "lo", "ms", "sah",
      "su", "th", "tt", "ug", "vi", "wo", "zh"], single),
    (["be", "bs", "cnr", "dz", "hr", "ru", "sr", "uk"], slavic),
    (["ar"], arabic),
    (["cs", "sk"], czech),
    (["pl"], polish),
    (["is"], icelandic),
    (["lt"], lithuanian),
    (["lv"], latvian)]

def rules : Rulebook :=
  groups.flatMap fun (codes, rule) => codes.map (·, rule)

def rulesWith (others : Rulebook) : Rulebook :=
  Members.putAll rules others

end Phrasebook.Plural.Builtin
