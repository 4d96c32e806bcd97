import RefRules.Text.Blank
import RefRules.Text.Script

/-!
# RefRules — named character properties

The classes that a pattern can name: general categories and their groups, scripts, and yes-or-no
properties. Names are compared in a loose form: without case, blanks, underscores and hyphens, and
without `is` in front.
-/

namespace RefRules.Text

/-! ## Yes-or-no properties -/

/-- Lower case outside the lower-case letters. -/
def otherLowercase : List (Nat × Nat) :=
  [(170, 170), (186, 186), (688, 696), (704, 705), (736, 740), (837, 837), (890, 890),
   (4348, 4348), (7468, 7530), (7544, 7544), (7579, 7615), (8305, 8305), (8319, 8319),
   (8336, 8348), (8560, 8575), (9424, 9449), (11388, 11389), (42652, 42653), (42864, 42864),
   (42994, 42996), (43000, 43001), (43868, 43871), (43881, 43881), (67456, 67456),
   (67459, 67461), (67463, 67504), (67506, 67514), (122928, 122989)]

/-- Upper case outside the upper-case letters. -/
def otherUppercase : List (Nat × Nat) :=
  [(8544, 8559), (9398, 9423), (127280, 127305), (127312, 127337), (127344, 127369)]

def isLowercase (c : Char) : Bool :=
  Category.ofChar c == .ll || inRanges otherLowercase c.toNat

def isUppercase (c : Char) : Bool :=
  Category.ofChar c == .lu || inRanges otherUppercase c.toNat

/-- Format characters that join the letters beside them. -/
def isJoinControl (c : Char) : Bool :=
  c.toNat == 0x200C || c.toNat == 0x200D

/-- The characters of words: alphabetic, marks, decimal digits, connectors and joiners. -/
def isWordChar (c : Char) : Bool :=
  match Category.ofChar c with
  | .mn | .mc | .me | .nd | .pc => true
  | _ => isAlphabetic c || isJoinControl c

/-- The decimal digits of all scripts. -/
def isDecimalDigit (c : Char) : Bool :=
  Category.ofChar c == .nd

def isHexLetter (c : Char) : Bool :=
  ('a' ≤ c && c ≤ 'f') || ('A' ≤ c && c ≤ 'F')

/-- The digits and letters of hexadecimal numbers, in ASCII. -/
def isAsciiHexDigit (c : Char) : Bool :=
  c.isDigit || isHexLetter c

/-- Letters and letter numbers, and what counts as one for identifiers. -/
def isIdentifierStart (c : Char) : Bool :=
  match Category.ofChar c with
  | .lu | .ll | .lt | .lm | .lo | .nl => c.toNat != 0x2E2F
  | _ => [0x1885, 0x1886, 0x2118, 0x212E, 0x309B, 0x309C].contains c.toNat

/-- Numbers and signs that an identifier may go on with, outside of its categories. -/
def otherIdentifierContinue : List (Nat × Nat) :=
  [(183, 183), (903, 903), (4969, 4977), (6618, 6618)]

/-- What identifiers go on with. -/
def isIdentifierContinue (c : Char) : Bool :=
  match Category.ofChar c with
  | .mn | .mc | .nd | .pc => true
  | _ => isIdentifierStart c || inRanges otherIdentifierContinue c.toNat

/-- What identifiers cannot hold if they are to stay identifiers when they are normalized. -/
def unstableContinues : List (Nat × Nat) :=
  [(890, 890), (12443, 12444), (64606, 64611), (65018, 65019), (65136, 65136), (65138, 65138),
   (65140, 65140), (65142, 65142), (65144, 65144), (65146, 65146), (65148, 65148), (65150, 65150)]

/-- What they cannot begin with, besides. -/
def unstableStarts : List (Nat × Nat) :=
  [(3635, 3635), (3763, 3763), (65438, 65439)]

def isStableStart (c : Char) : Bool :=
  isIdentifierStart c && !inRanges unstableContinues c.toNat && !inRanges unstableStarts c.toNat

def isStableContinue (c : Char) : Bool :=
  isIdentifierContinue c && !inRanges unstableContinues c.toNat

def emojiRanges : List (Nat × Nat) :=
  [(35, 35), (42, 42), (48, 57), (169, 169), (174, 174), (8252, 8252), (8265, 8265),
   (8482, 8482), (8505, 8505), (8596, 8601), (8617, 8618), (8986, 8987), (9000, 9000),
   (9167, 9167), (9193, 9203), (9208, 9210), (9410, 9410), (9642, 9643), (9654, 9654),
   (9664, 9664), (9723, 9726), (9728, 9732), (9742, 9742), (9745, 9745), (9748, 9749),
   (9752, 9752), (9757, 9757), (9760, 9760), (9762, 9763), (9766, 9766), (9770, 9770),
   (9774, 9775), (9784, 9786), (9792, 9792), (9794, 9794), (9800, 9811), (9823, 9824),
   (9827, 9827), (9829, 9830), (9832, 9832), (9851, 9851), (9854, 9855), (9874, 9879),
   (9881, 9881), (9883, 9884), (9888, 9889), (9895, 9895), (9898, 9899), (9904, 9905),
   (9917, 9918), (9924, 9925), (9928, 9928), (9934, 9935), (9937, 9937), (9939, 9940),
   (9961, 9962), (9968, 9973), (9975, 9978), (9981, 9981), (9986, 9986), (9989, 9989),
   (9992, 9997), (9999, 9999), (10002, 10002), (10004, 10004), (10006, 10006), (10013, 10013),
   (10017, 10017), (10024, 10024), (10035, 10036), (10052, 10052), (10055, 10055),
   (10060, 10060), (10062, 10062), (10067, 10069), (10071, 10071), (10083, 10084),
   (10133, 10135), (10145, 10145), (10160, 10160), (10175, 10175), (10548, 10549),
   (11013, 11015), (11035, 11036), (11088, 11088), (11093, 11093), (12336, 12336),
   (12349, 12349), (12951, 12951), (12953, 12953), (126980, 126980), (127183, 127183),
   (127344, 127345), (127358, 127359), (127374, 127374), (127377, 127386), (127462, 127487),
   (127489, 127490), (127514, 127514), (127535, 127535), (127538, 127546), (127568, 127569),
   (127744, 127777), (127780, 127891), (127894, 127895), (127897, 127899), (127902, 127984),
   (127987, 127989), (127991, 128253), (128255, 128317), (128329, 128334), (128336, 128359),
   (128367, 128368), (128371, 128378), (128391, 128391), (128394, 128397), (128400, 128400),
   (128405, 128406), (128420, 128421), (128424, 128424), (128433, 128434), (128444, 128444),
   (128450, 128452), (128465, 128467), (128476, 128478), (128481, 128481), (128483, 128483),
   (128488, 128488), (128495, 128495), (128499, 128499), (128506, 128591), (128640, 128709),
   (128715, 128722), (128725, 128727), (128732, 128741), (128745, 128745), (128747, 128748),
   (128752, 128752), (128755, 128764), (128992, 129003), (129008, 129008), (129292, 129338),
   (129340, 129349), (129351, 129535), (129648, 129660), (129664, 129672), (129680, 129725),
   (129727, 129733), (129742, 129755), (129760, 129768), (129776, 129784)]

def pictographicRanges : List (Nat × Nat) :=
  [(169, 169), (174, 174), (8252, 8252), (8265, 8265), (8482, 8482), (8505, 8505), (8596, 8601),
   (8617, 8618), (8986, 8987), (9000, 9000), (9096, 9096), (9167, 9167), (9193, 9203),
   (9208, 9210), (9410, 9410), (9642, 9643), (9654, 9654), (9664, 9664), (9723, 9726),
   (9728, 9733), (9735, 9746), (9748, 9861), (9872, 9989), (9992, 10002), (10004, 10004),
   (10006, 10006), (10013, 10013), (10017, 10017), (10024, 10024), (10035, 10036),
   (10052, 10052), (10055, 10055), (10060, 10060), (10062, 10062), (10067, 10069),
   (10071, 10071), (10083, 10087), (10133, 10135), (10145, 10145), (10160, 10160),
   (10175, 10175), (10548, 10549), (11013, 11015), (11035, 11036), (11088, 11088),
   (11093, 11093), (12336, 12336), (12349, 12349), (12951, 12951), (12953, 12953),
   (126976, 127231), (127245, 127247), (127279, 127279), (127340, 127345), (127358, 127359),
   (127374, 127374), (127377, 127386), (127405, 127461), (127489, 127503), (127514, 127514),
   (127535, 127535), (127538, 127546), (127548, 127551), (127561, 127994), (128000, 128317),
   (128326, 128591), (128640, 128767), (128884, 128895), (128981, 129023), (129036, 129039),
   (129096, 129103), (129114, 129119), (129160, 129167), (129198, 129279), (129292, 129338),
   (129340, 129349), (129351, 129791), (130048, 131069)]

def ideographicRanges : List (Nat × Nat) :=
  [(12294, 12295), (12321, 12329), (12344, 12346), (13312, 19903), (19968, 40959),
   (63744, 64109), (64112, 64217), (94180, 94180), (94208, 100343), (100352, 101589),
   (101632, 101640), (110960, 111355), (131072, 173791), (173824, 177977), (177984, 178205),
   (178208, 183969), (183984, 191456), (194560, 195101), (196608, 201546), (201552, 205743)]

def dashRanges : List (Nat × Nat) :=
  [(45, 45), (1418, 1418), (1470, 1470), (5120, 5120), (6150, 6150), (8208, 8213), (8275, 8275),
   (8315, 8315), (8331, 8331), (8722, 8722), (11799, 11799), (11802, 11802), (11834, 11835),
   (11840, 11840), (11869, 11869), (12316, 12316), (12336, 12336), (12448, 12448),
   (65073, 65074), (65112, 65112), (65123, 65123), (65293, 65293), (69293, 69293)]

def hexDigitRanges : List (Nat × Nat) :=
  [(48, 57), (65, 70), (97, 102), (65296, 65305), (65313, 65318), (65345, 65350)]

def quotationRanges : List (Nat × Nat) :=
  [(34, 34), (39, 39), (171, 171), (187, 187), (8216, 8223), (8249, 8250), (11842, 11842),
   (12300, 12303), (12317, 12319), (65089, 65092), (65282, 65282), (65287, 65287), (65378, 65379)]

/-- Signs and letters of mathematics. -/
def mathRanges : List (Nat × Nat) :=
  [(43, 43), (60, 62), (94, 94), (124, 124), (126, 126), (172, 172), (177, 177), (215, 215),
   (247, 247), (976, 978), (981, 981), (1008, 1009), (1012, 1014), (1542, 1544), (8214, 8214),
   (8242, 8244), (8256, 8256), (8260, 8260), (8274, 8274), (8289, 8292), (8314, 8318),
   (8330, 8334), (8400, 8412), (8417, 8417), (8421, 8422), (8427, 8431), (8450, 8450),
   (8455, 8455), (8458, 8467), (8469, 8469), (8472, 8477), (8484, 8484), (8488, 8489),
   (8492, 8493), (8495, 8497), (8499, 8504), (8508, 8521), (8523, 8523), (8592, 8615),
   (8617, 8622), (8624, 8625), (8630, 8631), (8636, 8667), (8669, 8669), (8676, 8677),
   (8692, 8959), (8968, 8971), (8992, 8993), (9084, 9084), (9115, 9141), (9143, 9143),
   (9168, 9168), (9180, 9186), (9632, 9633), (9646, 9655), (9660, 9665), (9670, 9671),
   (9674, 9675), (9679, 9683), (9698, 9698), (9700, 9700), (9703, 9708), (9720, 9727),
   (9733, 9734), (9792, 9792), (9794, 9794), (9824, 9827), (9837, 9839), (10176, 10239),
   (10496, 11007), (11056, 11076), (11079, 11084), (64297, 64297), (65121, 65126), (65128, 65128),
   (65291, 65291), (65308, 65310), (65340, 65340), (65342, 65342), (65372, 65372), (65374, 65374),
   (65506, 65506), (65513, 65516), (119808, 119892), (119894, 119964), (119966, 119967),
   (119970, 119970), (119973, 119974), (119977, 119980), (119982, 119993), (119995, 119995),
   (119997, 120003), (120005, 120069), (120071, 120074), (120077, 120084), (120086, 120092),
   (120094, 120121), (120123, 120126), (120128, 120132), (120134, 120134), (120138, 120144),
   (120146, 120485), (120488, 120779), (120782, 120831), (126464, 126467), (126469, 126495),
   (126497, 126498), (126500, 126500), (126503, 126503), (126505, 126514), (126516, 126519),
   (126521, 126521), (126523, 126523), (126530, 126530), (126535, 126535), (126537, 126537),
   (126539, 126539), (126541, 126543), (126545, 126546), (126548, 126548), (126551, 126551),
   (126553, 126553), (126555, 126555), (126557, 126557), (126559, 126559), (126561, 126562),
   (126564, 126564), (126567, 126570), (126572, 126578), (126580, 126583), (126585, 126588),
   (126590, 126590), (126592, 126601), (126603, 126619), (126625, 126627), (126629, 126633),
   (126635, 126651), (126704, 126705)]

/-- What emoji are put together from. -/
def emojiComponentRanges : List (Nat × Nat) :=
  [(35, 35), (42, 42), (48, 57), (8205, 8205), (8419, 8419), (65039, 65039), (127462, 127487),
   (127995, 127999), (129456, 129459), (917536, 917631)]

/-- The unified ideographs. -/
def unifiedIdeographRanges : List (Nat × Nat) :=
  [(13312, 19903), (19968, 40959), (64014, 64015), (64017, 64017), (64019, 64020), (64031, 64031),
   (64033, 64033), (64035, 64036), (64039, 64041), (131072, 173791), (173824, 177977),
   (177984, 178205), (178208, 183969), (183984, 191456), (196608, 201546), (201552, 205743)]

/-- Marks that join the character before them outside the marks without width. -/
def otherGraphemeExtend : List (Nat × Nat) :=
  [(2494, 2494), (2519, 2519), (2878, 2878), (2903, 2903), (3006, 3006), (3031, 3031),
   (3266, 3266), (3285, 3286), (3390, 3390), (3415, 3415), (3535, 3535), (3551, 3551),
   (6965, 6965), (8204, 8204), (12334, 12335), (65438, 65439), (70462, 70462), (70487, 70487),
   (70832, 70832), (70845, 70845), (71087, 71087), (71984, 71984), (119141, 119141),
   (119150, 119154), (917536, 917631)]

/-- The character belongs to the one before it. -/
def isGraphemeExtend (c : Char) : Bool :=
  match Category.ofChar c with
  | .mn | .me => true
  | _ => inRanges otherGraphemeExtend c.toNat

/-- The code points that are never characters. -/
def isNoncharacter (c : Char) : Bool :=
  let n := c.toNat
  (0xFDD0 ≤ n && n ≤ 0xFDEF) || 0xFFFE ≤ n % 0x10000

/-- The yes-or-no properties that are known here, by their loose names. -/
def propertyNamed? (name : String) : Option (Char → Bool) :=
  match name with
  | "alphabetic" | "alpha" => some isAlphabetic
  | "lowercase" | "lower" => some isLowercase
  | "uppercase" | "upper" => some isUppercase
  | "cased" => some fun c => isLowercase c || isUppercase c || Category.ofChar c == .lt
  | "whitespace" | "wspace" | "space" => some isBlank
  | "joincontrol" | "joinc" => some isJoinControl
  | "asciihexdigit" | "ahex" => some isAsciiHexDigit
  | "hexdigit" | "hex" => some fun c => inRanges hexDigitRanges c.toNat
  | "idstart" | "ids" => some isIdentifierStart
  | "idcontinue" | "idc" => some isIdentifierContinue
  | "xidstart" | "xids" => some isStableStart
  | "xidcontinue" | "xidc" => some isStableContinue
  | "math" => some fun c => inRanges mathRanges c.toNat
  | "graphemeextend" | "grext" => some isGraphemeExtend
  | "noncharactercodepoint" | "nchar" => some isNoncharacter
  | "patternwhitespace" | "patws" => some fun c =>
    inRanges [(9, 13), (32, 32), (133, 133), (8206, 8207), (8232, 8233)] c.toNat
  | "regionalindicator" | "ri" => some fun c => inRanges [(127462, 127487)] c.toNat
  | "radical" => some fun c => inRanges [(11904, 11929), (11931, 12019), (12032, 12245)] c.toNat
  | "variationselector" | "vs" => some fun c =>
    inRanges [(6155, 6157), (6159, 6159), (65024, 65039), (917760, 917999)] c.toNat
  | "emojimodifier" | "emod" => some fun c => inRanges [(127995, 127999)] c.toNat
  | "emojicomponent" | "ecomp" => some fun c => inRanges emojiComponentRanges c.toNat
  | "unifiedideograph" | "uideo" => some fun c => inRanges unifiedIdeographRanges c.toNat
  | "emoji" => some fun c => inRanges emojiRanges c.toNat
  | "extendedpictographic" | "extpict" => some fun c => inRanges pictographicRanges c.toNat
  | "ideographic" | "ideo" => some fun c => inRanges ideographicRanges c.toNat
  | "dash" => some fun c => inRanges dashRanges c.toNat
  | "quotationmark" | "qmark" => some fun c => inRanges quotationRanges c.toNat
  | _ => none

/-! ## Categories and scripts by name -/

/-- Loose names of general categories and of groups of them. -/
def categoryNames : List (String × List Category) :=
  [("lu", [.lu]), ("uppercaseletter", [.lu]), ("ll", [.ll]), ("lowercaseletter", [.ll]),
   ("lt", [.lt]), ("titlecaseletter", [.lt]), ("lm", [.lm]), ("modifierletter", [.lm]),
   ("lo", [.lo]), ("otherletter", [.lo]), ("mn", [.mn]), ("nonspacingmark", [.mn]),
   ("mc", [.mc]), ("spacingmark", [.mc]), ("me", [.me]), ("enclosingmark", [.me]),
   ("nd", [.nd]), ("decimalnumber", [.nd]), ("digit", [.nd]), ("nl", [.nl]),
   ("letternumber", [.nl]), ("no", [.no]), ("othernumber", [.no]), ("pc", [.pc]),
   ("connectorpunctuation", [.pc]), ("pd", [.pd]), ("dashpunctuation", [.pd]), ("ps", [.ps]),
   ("openpunctuation", [.ps]), ("pe", [.pe]), ("closepunctuation", [.pe]), ("pi", [.pi]),
   ("initialpunctuation", [.pi]), ("pf", [.pf]), ("finalpunctuation", [.pf]), ("po", [.po]),
   ("otherpunctuation", [.po]), ("sm", [.sm]), ("mathsymbol", [.sm]), ("sc", [.sc]),
   ("currencysymbol", [.sc]), ("sk", [.sk]), ("modifiersymbol", [.sk]), ("so", [.so]),
   ("othersymbol", [.so]), ("zs", [.zs]), ("spaceseparator", [.zs]), ("zl", [.zl]),
   ("lineseparator", [.zl]), ("zp", [.zp]), ("paragraphseparator", [.zp]), ("cc", [.cc]),
   ("control", [.cc]), ("cntrl", [.cc]), ("cf", [.cf]), ("format", [.cf]), ("cs", [.cs]),
   ("surrogate", [.cs]), ("co", [.co]), ("privateuse", [.co]), ("cn", [.cn]),
   ("unassigned", [.cn]), ("l", [.lu, .ll, .lt, .lm, .lo]),
   ("letter", [.lu, .ll, .lt, .lm, .lo]), ("lc", [.lu, .ll, .lt]),
   ("casedletter", [.lu, .ll, .lt]), ("m", [.mn, .mc, .me]), ("mark", [.mn, .mc, .me]),
   ("combiningmark", [.mn, .mc, .me]), ("n", [.nd, .nl, .no]), ("number", [.nd, .nl, .no]),
   ("p", [.pc, .pd, .ps, .pe, .pi, .pf, .po]),
   ("punctuation", [.pc, .pd, .ps, .pe, .pi, .pf, .po]),
   ("punct", [.pc, .pd, .ps, .pe, .pi, .pf, .po]), ("s", [.sm, .sc, .sk, .so]),
   ("symbol", [.sm, .sc, .sk, .so]), ("z", [.zs, .zl, .zp]), ("separator", [.zs, .zl, .zp]),
   ("c", [.cc, .cf, .cs, .co, .cn]), ("other", [.cc, .cf, .cs, .co, .cn])]

def categoryNamed? (name : String) : Option (Char → Bool) :=
  match name with
  | "any" => some fun _ => true
  | "ascii" => some fun c => c.toNat < 128
  | "assigned" => some fun c => Category.ofChar c != .cn
  | _ => (categoryNames.lookup name).map fun group c => group.contains (Category.ofChar c)

def scriptNamed? (name : String) : Option (Char → Bool) :=
  (scriptNames.lookup name).map fun code c => scriptOf c.toNat == code

/-! ## Look-up -/

/-- The loose form of a name. -/
def looseName (name : String) : String :=
  let lower := name.toList.map Char.toLower
  let kept (cs : List Char) :=
    cs.filter fun c => !(c == ' ' || c == '_' || c == '-') && c.toNat < 128
  match lower with
  | 'i' :: 's' :: rest =>
    match kept rest with
    | ['c'] => "isc"
    | cs => String.ofList cs
  | cs => String.ofList (kept cs)

/-- The class that a single name stands for: a property, a category or a script. -/
def classNamed? (name : String) : Option (Char → Bool) :=
  let loose := looseName name
  (propertyNamed? loose).or ((categoryNamed? loose).or (scriptNamed? loose))

/-- The class of the characters whose property `name` has the value `value`. Known are the values of two
properties, the general category and the script. -/
def classOfValue? (name value : String) : Option (Char → Bool) :=
  match looseName name with
  | "generalcategory" | "gc" => categoryNamed? (looseName value)
  | "script" | "sc" => scriptNamed? (looseName value)
  | _ => none

end RefRules.Text
