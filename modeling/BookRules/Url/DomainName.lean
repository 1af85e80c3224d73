import BookRules.Word
import BookRules.Text.Occurrence
import BookRules.Unicode.CaseMap

/-!
# Domain names

Names with characters beyond ASCII are brought to lower case, characters with a
compatible form take that form, and every label that still holds other
characters is written in the ASCII form behind `xn--`.  Names are taken as
composed text.  A label that already has that form must be the form of some
label.
-/

namespace BookRules.Url.DomainName

/-- Compatible forms. -/
def compatibleRuns : List Unicode.Move :=
  [⟨178, 2, 1, -128⟩, ⟨832, 2, 1, -64⟩, ⟨7470, 2, 2, -7372⟩, ⟨7475, 8, 1, -7372⟩,
    ⟨7488, 2, 1, -7372⟩, ⟨7492, 2, 1, -6900⟩, ⟨7496, 2, 1, -7396⟩, ⟨7499, 2, 1, -6896⟩,
    ⟨7508, 2, 1, -62⟩, ⟨7511, 2, 1, -7395⟩, ⟨7517, 3, 1, -6571⟩, ⟨7520, 2, 1, -6554⟩,
    ⟨7524, 2, 1, -7407⟩, ⟨7526, 2, 1, -6580⟩, ⟨7529, 2, 1, -6563⟩, ⟨7588, 3, 1, -6972⟩,
    ⟨7598, 4, 1, -6972⟩, ⟨7603, 2, 1, -6961⟩, ⟨7606, 2, 1, -6957⟩, ⟨7609, 2, 1, -6958⟩,
    ⟨7612, 3, 1, -6956⟩, ⟨8185, 2, 2, -7213⟩, ⟨8308, 6, 1, -8256⟩, ⟨8317, 2, 1, -8277⟩,
    ⟨8320, 10, 1, -8272⟩, ⟨8333, 2, 1, -8293⟩, ⟨8342, 4, 1, -8235⟩, ⟨8347, 2, 1, -8232⟩,
    ⟨8458, 2, 1, -8355⟩, ⟨8467, 2, 2, -8359⟩, ⟨8473, 3, 1, -8361⟩, ⟨8492, 2, 1, -8394⟩,
    ⟨8496, 2, 1, -8395⟩, ⟨8501, 4, 1, -7013⟩, ⟨8518, 2, 1, -8418⟩, ⟨8520, 2, 1, -8415⟩,
    ⟨8557, 2, 1, -8458⟩, ⟨8573, 2, 1, -8474⟩, ⟨9001, 2, 1, 3295⟩, ⟨9312, 9, 1, -9263⟩,
    ⟨9398, 26, 1, -9301⟩, ⟨9424, 26, 1, -9327⟩, ⟨12345, 2, 1, 8971⟩, ⟨12593, 2, 1, -8241⟩,
    ⟨12597, 2, 1, -8073⟩, ⟨12599, 3, 1, -8244⟩, ⟨12602, 6, 1, -8074⟩, ⟨12609, 3, 1, -8251⟩,
    ⟨12613, 10, 1, -8252⟩, ⟨12623, 21, 1, -8174⟩, ⟨12645, 2, 1, -8273⟩, ⟨12647, 2, 1, -8096⟩,
    ⟨12657, 2, 1, -8276⟩, ⟨12660, 2, 1, -8274⟩, ⟨12664, 5, 1, -8269⟩, ⟨12674, 2, 1, -8081⟩,
    ⟨12676, 3, 1, -8237⟩, ⟨12679, 2, 1, -8195⟩, ⟨12682, 2, 1, -8185⟩, ⟨12897, 2, 1, -8543⟩,
    ⟨12899, 3, 1, -8542⟩, ⟨12903, 2, 1, -8540⟩, ⟨12905, 5, 1, -8539⟩, ⟨13012, 2, 1, -554⟩,
    ⟨13028, 6, 1, -538⟩, ⟨13038, 5, 1, -528⟩, ⟨13045, 6, 1, -525⟩, ⟨13051, 4, 1, -524⟩,
    ⟨42956, 2, 2, 1⟩, ⟨42962, 2, 2, 1⟩, ⟨64082, 2, 1, -32965⟩, ⟨64290, 2, 1, -62799⟩,
    ⟨64292, 3, 1, -62793⟩, ⟨64381, 2, 1, -62711⟩, ⟨64415, 2, 1, -62693⟩, ⟨64421, 2, 1, -62693⟩,
    ⟨64431, 2, 1, -62685⟩, ⟨65043, 2, 1, -64985⟩, ⟨65047, 2, 1, -52737⟩, ⟨65077, 2, 1, -65037⟩,
    ⟨65081, 2, 1, -52773⟩, ⟨65083, 2, 1, -52779⟩, ⟨65085, 2, 1, -52787⟩, ⟨65087, 2, 1, -52791⟩,
    ⟨65089, 4, 1, -52789⟩, ⟨65113, 2, 1, -65073⟩, ⟨65117, 2, 1, -52809⟩, ⟨65121, 2, 1, -65079⟩,
    ⟨65129, 2, 1, -65093⟩, ⟨65152, 2, 1, -63583⟩, ⟨65154, 2, 1, -63584⟩, ⟨65156, 2, 1, -63585⟩,
    ⟨65158, 2, 1, -63586⟩, ⟨65160, 2, 1, -63587⟩, ⟨65164, 2, 1, -63590⟩, ⟨65166, 2, 1, -63591⟩,
    ⟨65170, 2, 1, -63594⟩, ⟨65172, 2, 1, -63595⟩, ⟨65176, 2, 1, -63598⟩, ⟨65180, 2, 1, -63601⟩,
    ⟨65184, 2, 1, -63604⟩, ⟨65188, 2, 1, -63607⟩, ⟨65192, 2, 1, -63610⟩, ⟨65194, 2, 1, -63611⟩,
    ⟨65196, 2, 1, -63612⟩, ⟨65198, 2, 1, -63613⟩, ⟨65200, 2, 1, -63614⟩, ⟨65204, 2, 1, -63617⟩,
    ⟨65208, 2, 1, -63620⟩, ⟨65212, 2, 1, -63623⟩, ⟨65216, 2, 1, -63626⟩, ⟨65220, 2, 1, -63629⟩,
    ⟨65224, 2, 1, -63632⟩, ⟨65228, 2, 1, -63635⟩, ⟨65236, 2, 1, -63635⟩, ⟨65240, 2, 1, -63638⟩,
    ⟨65244, 2, 1, -63641⟩, ⟨65248, 2, 1, -63644⟩, ⟨65252, 2, 1, -63647⟩, ⟨65256, 2, 1, -63650⟩,
    ⟨65260, 2, 1, -63653⟩, ⟨65262, 2, 1, -63654⟩, ⟨65264, 2, 1, -63655⟩, ⟨65281, 32, 1, -65248⟩,
    ⟨65313, 26, 1, -65216⟩, ⟨65339, 36, 1, -65248⟩, ⟨65375, 2, 1, -54746⟩, ⟨65378, 2, 1, -53078⟩,
    ⟨65397, 2, 1, -52939⟩, ⟨65413, 6, 1, -52923⟩, ⟨65423, 5, 1, -52913⟩, ⟨65430, 6, 1, -52910⟩,
    ⟨65438, 2, 1, -52997⟩, ⟨65441, 2, 1, -61089⟩, ⟨65445, 2, 1, -60921⟩, ⟨65447, 3, 1, -61092⟩,
    ⟨65450, 6, 1, -60922⟩, ⟨65457, 3, 1, -61099⟩, ⟨65461, 10, 1, -61100⟩, ⟨65474, 6, 1, -61025⟩,
    ⟨65482, 6, 1, -61027⟩, ⟨65490, 6, 1, -61029⟩, ⟨65498, 3, 1, -61031⟩, ⟨65504, 2, 1, -65342⟩,
    ⟨65513, 4, 1, -56921⟩, ⟨67457, 2, 1, -66737⟩, ⟨67467, 2, 1, -66869⟩, ⟨67481, 2, 1, -66799⟩,
    ⟨67491, 2, 1, -66861⟩, ⟨67496, 2, 1, -66859⟩, ⟨67507, 2, 1, -66834⟩, ⟨67510, 3, 1, -67062⟩,
    ⟨68944, 22, 1, 32⟩, ⟨93856, 25, 1, 27⟩, ⟨117974, 26, 1, -117877⟩, ⟨118000, 10, 1, -117952⟩,
    ⟨119808, 26, 1, -119711⟩, ⟨119834, 26, 1, -119737⟩, ⟨119860, 26, 1, -119763⟩,
    ⟨119886, 7, 1, -119789⟩, ⟨119894, 18, 1, -119789⟩, ⟨119912, 26, 1, -119815⟩,
    ⟨119938, 26, 1, -119841⟩, ⟨119964, 2, 2, -119867⟩, ⟨119973, 2, 1, -119867⟩,
    ⟨119977, 4, 1, -119867⟩, ⟨119982, 8, 1, -119867⟩, ⟨119990, 4, 1, -119893⟩,
    ⟨119995, 2, 2, -119893⟩, ⟨119998, 6, 1, -119893⟩, ⟨120005, 11, 1, -119893⟩,
    ⟨120016, 26, 1, -119919⟩, ⟨120042, 26, 1, -119945⟩, ⟨120068, 2, 1, -119971⟩,
    ⟨120071, 4, 1, -119971⟩, ⟨120077, 8, 1, -119971⟩, ⟨120086, 7, 1, -119971⟩,
    ⟨120094, 26, 1, -119997⟩, ⟨120120, 2, 1, -120023⟩, ⟨120123, 4, 1, -120023⟩,
    ⟨120128, 5, 1, -120023⟩, ⟨120138, 7, 1, -120023⟩, ⟨120146, 26, 1, -120049⟩,
    ⟨120172, 26, 1, -120075⟩, ⟨120198, 26, 1, -120101⟩, ⟨120224, 26, 1, -120127⟩,
    ⟨120250, 26, 1, -120153⟩, ⟨120276, 26, 1, -120179⟩, ⟨120302, 26, 1, -120205⟩,
    ⟨120328, 26, 1, -120231⟩, ⟨120354, 26, 1, -120257⟩, ⟨120380, 26, 1, -120283⟩,
    ⟨120406, 26, 1, -120309⟩, ⟨120432, 26, 1, -120335⟩, ⟨120458, 26, 1, -120361⟩,
    ⟨120488, 17, 1, -119543⟩, ⟨120506, 7, 1, -119543⟩, ⟨120514, 17, 1, -119569⟩,
    ⟨120532, 7, 1, -119569⟩, ⟨120546, 17, 1, -119601⟩, ⟨120564, 7, 1, -119601⟩,
    ⟨120572, 17, 1, -119627⟩, ⟨120590, 7, 1, -119627⟩, ⟨120604, 17, 1, -119659⟩,
    ⟨120622, 7, 1, -119659⟩, ⟨120630, 17, 1, -119685⟩, ⟨120648, 7, 1, -119685⟩,
    ⟨120662, 17, 1, -119717⟩, ⟨120680, 7, 1, -119717⟩, ⟨120688, 17, 1, -119743⟩,
    ⟨120706, 7, 1, -119743⟩, ⟨120720, 17, 1, -119775⟩, ⟨120738, 7, 1, -119775⟩,
    ⟨120746, 17, 1, -119801⟩, ⟨120764, 7, 1, -119801⟩, ⟨120782, 10, 1, -120734⟩,
    ⟨120792, 10, 1, -120744⟩, ⟨120802, 10, 1, -120754⟩, ⟨120812, 10, 1, -120764⟩,
    ⟨120822, 10, 1, -120774⟩, ⟨122928, 9, 1, -121856⟩, ⟨122937, 3, 1, -121855⟩,
    ⟨122940, 11, 1, -121854⟩, ⟨122952, 2, 1, -121851⟩, ⟨122961, 9, 1, -121889⟩,
    ⟨122970, 2, 1, -121888⟩, ⟨122972, 2, 1, -121886⟩, ⟨122975, 6, 1, -121884⟩,
    ⟨122981, 2, 1, -121883⟩, ⟨126464, 2, 1, -124889⟩, ⟨126474, 4, 1, -124871⟩,
    ⟨126485, 2, 1, -124907⟩, ⟨126506, 4, 1, -124903⟩, ⟨126517, 2, 1, -124939⟩,
    ⟨126539, 2, 2, -124935⟩, ⟨126570, 2, 2, -124967⟩, ⟨126581, 2, 1, -125003⟩,
    ⟨126592, 2, 1, -125017⟩, ⟨126596, 2, 1, -124989⟩, ⟨126603, 3, 1, -124999⟩,
    ⟨126613, 2, 1, -125035⟩, ⟨126635, 3, 1, -125031⟩, ⟨126645, 2, 1, -125067⟩,
    ⟨127280, 26, 1, -127183⟩, ⟨130032, 10, 1, -129984⟩, ⟨194601, 2, 1, -173348⟩,
    ⟨194689, 2, 1, -170656⟩, ⟨194805, 2, 1, -167227⟩, ⟨194885, 2, 1, -164391⟩,
    ⟨195048, 2, 1, -157457⟩]

/-- Code points that no name holds although they are assigned, as gaps and
lengths. -/
def refusedGaps : List String :=
  ["1536 6 22 1 192 1 49 1 384 2 80 1 5931 2 20 3 3 5 55 4 1054 20 2900 12 966 1 4 1 16 1 51769",
    "1 6 1 22 1 33 1 422 5 4287 1 15 1 9058 16 48320 1 790272 1 30 96"]

/-- Code points that are left out of a name, as gaps and lengths. -/
def ignoredGaps : List String :=
  ["173 1 673 1 3599 2 1619 2 85 5 2043 1 84 5 5 6 4340 1 52379 16 239 1 160 1 48383 4 5327 8",
    "798597 240"]

def compatible : Unicode.Moves :=
  .ofRuns compatibleRuns

def refused : Unicode.Ranges :=
  .ofGaps refusedGaps

def ignored : Unicode.Ranges :=
  .ofGaps ignoredGaps

/-- The form a character takes in a name. -/
def mapped (c : Char) : List Char :=
  if c.toNat < 128 then [c.toLower]
  else if ignored.contains c.toNat then []
  else if c == '\u3002' || c == '\uFF0E' || c == '\uFF61' then ['.']
  else if c == 'ς' then [c]
  else if c == 'İ' then ['i', '\u0307']
  else if c.toNat == 0xA0 || c.toNat == 0x3000 then [' ']
  else
    let code := Unicode.fold (compatible.apply c.toNat)
    [Char.ofNat (compatible.apply code)]

/-- ASCII characters that no name holds. -/
def isForbiddenAscii (c : Char) : Bool :=
  c.toNat ≤ 0x20 || c.toNat == 0x7F ||
    ['#', '/', ':', '<', '>', '?', '@', '[', '\\', ']', '^', '|', '%'].contains c

/-- A character that a name may hold. -/
def isAllowed (c : Char) : Bool :=
  if c.toNat < 128 then !isForbiddenAscii c
  else
    !refused.contains c.toNat && c.toNat != 0x200C && c.toNat != 0x200D &&
    match Unicode.category c.toNat with
    | .unassigned | .control | .surrogate | .privateUse => false
    | .spaceSeparator | .lineSeparator | .paragraphSeparator => false
    | _ => true

/-- Labels do not start with a mark. -/
def startsWell (label : List Char) : Bool :=
  !(label.head?.any fun c => (Unicode.category c.toNat).belongsTo "m")

/-- A digit of the ASCII form: letters, then digits. -/
def digit (n : Nat) : Char :=
  if n < 26 then Char.ofNat (97 + n) else Char.ofNat (48 + (n - 26))

def digitValue? (c : Char) : Option Nat :=
  if 'a' ≤ c && c ≤ 'z' then some (c.toNat - 97)
  else if 'A' ≤ c && c ≤ 'Z' then some (c.toNat - 65)
  else if c.isDigit then some (c.toNat - 48 + 26)
  else none

/-- Bring a distance into the range in which the threshold of a digit is
adapted. -/
def adaptLoop : Nat → Nat → Nat → Nat
  | 0, k, delta => k + 36 * delta / (delta + 38)
  | fuel + 1, k, delta =>
    if 455 < delta then adaptLoop fuel (k + 36) (delta / 35) else k + 36 * delta / (delta + 38)

/-- The threshold for the next distance. -/
def adapt (delta points : Nat) (first : Bool) : Nat :=
  let delta := if first then delta / 700 else delta / 2
  adaptLoop 64 0 (delta + delta / points)

/-- The threshold of the digit at position `k`. -/
def threshold (k bias : Nat) : Nat :=
  if k ≤ bias then 1 else if bias + 26 ≤ k then 26 else k - bias

/-- A distance in digits whose base depends on their position. -/
def digitsOf : Nat → Nat → Nat → Nat → List Char
  | 0, _, _, _ => []
  | fuel + 1, q, k, bias =>
    let t := threshold k bias
    if q < t then [digit q]
    else digit (t + (q - t) % (36 - t)) :: digitsOf fuel ((q - t) / (36 - t)) (k + 36) bias

/-- What has been written of a label. -/
structure Encoding where
  delta : Nat
  handled : Nat
  bias : Nat
  out : List Char

/-- Pass over the characters of a label in the round for the code point `n`. -/
def encodeRound (n basic : Nat) (label : List Nat) (state : Encoding) : Encoding :=
  label.foldl (fun s code =>
    if code < n then { s with delta := s.delta + 1 }
    else if code == n then
      { out := s.out ++ digitsOf 64 s.delta 36 s.bias
        bias := adapt s.delta (s.handled + 1) (s.handled == basic)
        delta := 0
        handled := s.handled + 1 }
    else s) state

/-- Write the code points from `n` on, one round for each. -/
def encodeFrom (label : List Nat) (basic : Nat) : Nat → Nat → Encoding → Encoding
  | 0, _, state => state
  | fuel + 1, n, state =>
    match (label.filter (n ≤ ·)).min? with
    | none => state
    | some next =>
      let state := { state with delta := state.delta + (next - n) * (state.handled + 1) }
      let state := encodeRound next basic label state
      encodeFrom label basic fuel (next + 1) { state with delta := state.delta + 1 }

/-- The ASCII form of a label, without its mark. -/
def encode (label : List Char) : List Char :=
  let basic := label.filter fun c => c.toNat < 128
  let start : Encoding :=
    { delta := 0, handled := basic.length, bias := 72,
      out := if basic.isEmpty then [] else basic ++ ['-'] }
  (encodeFrom (label.map Char.toNat) basic.length (label.length + 1) 128 start).out

/-- Read one distance; the answer is the position it leads to and what
follows. -/
def readDistance? : Nat → Nat → Nat → Nat → Nat → List Char → Option (Nat × List Char)
  | 0, _, _, _, _, _ => none
  | _ + 1, _, _, _, _, [] => none
  | fuel + 1, i, weight, k, bias, c :: rest =>
    match digitValue? c with
    | none => none
    | some value =>
      let i := i + value * weight
      let t := threshold k bias
      if Word.range32 ≤ i then none
      else if value < t then some (i, rest)
      else readDistance? fuel i (weight * (36 - t)) (k + 36) bias rest

/-- Read the distances behind the ASCII characters of a label. -/
def decodeFrom : Nat → Nat → Nat → Nat → List Char → List Char → Option (List Char)
  | 0, _, _, _, _, _ => none
  | _ + 1, _, _, _, done, [] => some done
  | fuel + 1, n, i, bias, done, cs =>
    match readDistance? 64 i 1 36 bias cs with
    | none => none
    | some (j, rest) =>
      let points := done.length + 1
      let code := n + j / points
      let place := j % points
      if 0x10FFFF < code || (0xD800 ≤ code && code ≤ 0xDFFF) then none
      else
        decodeFrom fuel code (place + 1) (adapt (j - i) points (i == 0))
          (done.take place ++ Char.ofNat code :: done.drop place) rest

/-- The label with an ASCII form. -/
def decode? (form : List Char) : Option (List Char) :=
  match Text.cutAtLast? '-' form with
  | some (basic, rest) => decodeFrom (rest.length + 1) 128 0 72 basic rest
  | none => decodeFrom (form.length + 1) 128 0 72 [] form

/-- The mark of a label in ASCII form. -/
def mark : List Char :=
  ['x', 'n', '-', '-']

def isAscii (label : List Char) : Bool :=
  label.all fun c => c.toNat < 128

/-- A label that holds what labels may hold. -/
def isValidLabel (label : List Char) : Bool :=
  label.all isAllowed && startsWell label

def labelToAscii? (label : List Char) : Option (List Char) :=
  match Text.stripFront? mark label with
  | some form =>
    match decode? form with
    | none => none
    | some inside =>
      if inside.isEmpty || isAscii inside || inside.flatMap mapped != inside ||
          !isValidLabel inside || encode inside != form then none
      else some label
  | none =>
    if !isValidLabel label then none
    else if isAscii label then some label
    else some (mark ++ encode label)

/-- A name in ASCII; nothing when it is no name. -/
def toAscii? (name : List Char) : Option (List Char) :=
  let labels := (name.flatMap mapped).splitOnP (· == '.')
  (labels.mapM labelToAscii?).map fun labels => Text.joinWith ['.'] labels

end BookRules.Url.DomainName
