/-!
# Characters that escapes stand for

An escape in a literal may give a character by its Unicode name, and it may give a lone surrogate, which is
no character of a text. Both are left open: `Characters` says which character has a name and which one
stands in for a surrogate. `Characters.standard` knows the names of Basic Latin, Latin-1, Latin Extended-A,
basic Greek, general punctuation and currency signs, and of some common symbols, and takes the stand-ins
from the end of the first private plane.
-/

namespace Bundler.Text

/-- What the escapes of literals stand for beyond their code points: the character with a name, and the
stand-in of a lone surrogate, which is no character of ASCII. -/
structure Characters where
  named : List Char → Option Char
  surrogate : Nat → Char
  beyond : ∀ code, 0x80 ≤ (surrogate code).toNat

def characterNames : List (String × Nat) :=
  [("SPACE", 0x0020), ("EXCLAMATION MARK", 0x0021), ("QUOTATION MARK", 0x0022),
   ("NUMBER SIGN", 0x0023), ("DOLLAR SIGN", 0x0024), ("PERCENT SIGN", 0x0025),
   ("AMPERSAND", 0x0026), ("APOSTROPHE", 0x0027), ("LEFT PARENTHESIS", 0x0028),
   ("RIGHT PARENTHESIS", 0x0029), ("ASTERISK", 0x002A), ("PLUS SIGN", 0x002B), ("COMMA", 0x002C),
   ("HYPHEN-MINUS", 0x002D), ("FULL STOP", 0x002E), ("SOLIDUS", 0x002F), ("DIGIT ZERO", 0x0030),
   ("DIGIT ONE", 0x0031), ("DIGIT TWO", 0x0032), ("DIGIT THREE", 0x0033), ("DIGIT FOUR", 0x0034),
   ("DIGIT FIVE", 0x0035), ("DIGIT SIX", 0x0036), ("DIGIT SEVEN", 0x0037), ("DIGIT EIGHT", 0x0038),
   ("DIGIT NINE", 0x0039), ("COLON", 0x003A), ("SEMICOLON", 0x003B), ("LESS-THAN SIGN", 0x003C),
   ("EQUALS SIGN", 0x003D), ("GREATER-THAN SIGN", 0x003E), ("QUESTION MARK", 0x003F),
   ("COMMERCIAL AT", 0x0040), ("LATIN CAPITAL LETTER A", 0x0041),
   ("LATIN CAPITAL LETTER B", 0x0042), ("LATIN CAPITAL LETTER C", 0x0043),
   ("LATIN CAPITAL LETTER D", 0x0044), ("LATIN CAPITAL LETTER E", 0x0045),
   ("LATIN CAPITAL LETTER F", 0x0046), ("LATIN CAPITAL LETTER G", 0x0047),
   ("LATIN CAPITAL LETTER H", 0x0048), ("LATIN CAPITAL LETTER I", 0x0049),
   ("LATIN CAPITAL LETTER J", 0x004A), ("LATIN CAPITAL LETTER K", 0x004B),
   ("LATIN CAPITAL LETTER L", 0x004C), ("LATIN CAPITAL LETTER M", 0x004D),
   ("LATIN CAPITAL LETTER N", 0x004E), ("LATIN CAPITAL LETTER O", 0x004F),
   ("LATIN CAPITAL LETTER P", 0x0050), ("LATIN CAPITAL LETTER Q", 0x0051),
   ("LATIN CAPITAL LETTER R", 0x0052), ("LATIN CAPITAL LETTER S", 0x0053),
   ("LATIN CAPITAL LETTER T", 0x0054), ("LATIN CAPITAL LETTER U", 0x0055),
   ("LATIN CAPITAL LETTER V", 0x0056), ("LATIN CAPITAL LETTER W", 0x0057),
   ("LATIN CAPITAL LETTER X", 0x0058), ("LATIN CAPITAL LETTER Y", 0x0059),
   ("LATIN CAPITAL LETTER Z", 0x005A), ("LEFT SQUARE BRACKET", 0x005B),
   ("REVERSE SOLIDUS", 0x005C), ("RIGHT SQUARE BRACKET", 0x005D), ("CIRCUMFLEX ACCENT", 0x005E),
   ("LOW LINE", 0x005F), ("GRAVE ACCENT", 0x0060), ("LATIN SMALL LETTER A", 0x0061),
   ("LATIN SMALL LETTER B", 0x0062), ("LATIN SMALL LETTER C", 0x0063),
   ("LATIN SMALL LETTER D", 0x0064), ("LATIN SMALL LETTER E", 0x0065),
   ("LATIN SMALL LETTER F", 0x0066), ("LATIN SMALL LETTER G", 0x0067),
   ("LATIN SMALL LETTER H", 0x0068), ("LATIN SMALL LETTER I", 0x0069),
   ("LATIN SMALL LETTER J", 0x006A), ("LATIN SMALL LETTER K", 0x006B),
   ("LATIN SMALL LETTER L", 0x006C), ("LATIN SMALL LETTER M", 0x006D),
   ("LATIN SMALL LETTER N", 0x006E), ("LATIN SMALL LETTER O", 0x006F),
   ("LATIN SMALL LETTER P", 0x0070), ("LATIN SMALL LETTER Q", 0x0071),
   ("LATIN SMALL LETTER R", 0x0072), ("LATIN SMALL LETTER S", 0x0073),
   ("LATIN SMALL LETTER T", 0x0074), ("LATIN SMALL LETTER U", 0x0075),
   ("LATIN SMALL LETTER V", 0x0076), ("LATIN SMALL LETTER W", 0x0077),
   ("LATIN SMALL LETTER X", 0x0078), ("LATIN SMALL LETTER Y", 0x0079),
   ("LATIN SMALL LETTER Z", 0x007A), ("LEFT CURLY BRACKET", 0x007B), ("VERTICAL LINE", 0x007C),
   ("RIGHT CURLY BRACKET", 0x007D), ("TILDE", 0x007E), ("NO-BREAK SPACE", 0x00A0),
   ("INVERTED EXCLAMATION MARK", 0x00A1), ("CENT SIGN", 0x00A2), ("POUND SIGN", 0x00A3),
   ("CURRENCY SIGN", 0x00A4), ("YEN SIGN", 0x00A5), ("BROKEN BAR", 0x00A6),
   ("SECTION SIGN", 0x00A7), ("DIAERESIS", 0x00A8), ("COPYRIGHT SIGN", 0x00A9),
   ("FEMININE ORDINAL INDICATOR", 0x00AA), ("LEFT-POINTING DOUBLE ANGLE QUOTATION MARK", 0x00AB),
   ("NOT SIGN", 0x00AC), ("SOFT HYPHEN", 0x00AD), ("REGISTERED SIGN", 0x00AE), ("MACRON", 0x00AF),
   ("DEGREE SIGN", 0x00B0), ("PLUS-MINUS SIGN", 0x00B1), ("SUPERSCRIPT TWO", 0x00B2),
   ("SUPERSCRIPT THREE", 0x00B3), ("ACUTE ACCENT", 0x00B4), ("MICRO SIGN", 0x00B5),
   ("PILCROW SIGN", 0x00B6), ("MIDDLE DOT", 0x00B7), ("CEDILLA", 0x00B8),
   ("SUPERSCRIPT ONE", 0x00B9), ("MASCULINE ORDINAL INDICATOR", 0x00BA),
   ("RIGHT-POINTING DOUBLE ANGLE QUOTATION MARK", 0x00BB), ("VULGAR FRACTION ONE QUARTER", 0x00BC),
   ("VULGAR FRACTION ONE HALF", 0x00BD), ("VULGAR FRACTION THREE QUARTERS", 0x00BE),
   ("INVERTED QUESTION MARK", 0x00BF), ("LATIN CAPITAL LETTER A WITH GRAVE", 0x00C0),
   ("LATIN CAPITAL LETTER A WITH ACUTE", 0x00C1),
   ("LATIN CAPITAL LETTER A WITH CIRCUMFLEX", 0x00C2),
   ("LATIN CAPITAL LETTER A WITH TILDE", 0x00C3),
   ("LATIN CAPITAL LETTER A WITH DIAERESIS", 0x00C4),
   ("LATIN CAPITAL LETTER A WITH RING ABOVE", 0x00C5), ("LATIN CAPITAL LETTER AE", 0x00C6),
   ("LATIN CAPITAL LETTER C WITH CEDILLA", 0x00C7), ("LATIN CAPITAL LETTER E WITH GRAVE", 0x00C8),
   ("LATIN CAPITAL LETTER E WITH ACUTE", 0x00C9),
   ("LATIN CAPITAL LETTER E WITH CIRCUMFLEX", 0x00CA),
   ("LATIN CAPITAL LETTER E WITH DIAERESIS", 0x00CB),
   ("LATIN CAPITAL LETTER I WITH GRAVE", 0x00CC), ("LATIN CAPITAL LETTER I WITH ACUTE", 0x00CD),
   ("LATIN CAPITAL LETTER I WITH CIRCUMFLEX", 0x00CE),
   ("LATIN CAPITAL LETTER I WITH DIAERESIS", 0x00CF), ("LATIN CAPITAL LETTER ETH", 0x00D0),
   ("LATIN CAPITAL LETTER N WITH TILDE", 0x00D1), ("LATIN CAPITAL LETTER O WITH GRAVE", 0x00D2),
   ("LATIN CAPITAL LETTER O WITH ACUTE", 0x00D3),
   ("LATIN CAPITAL LETTER O WITH CIRCUMFLEX", 0x00D4),
   ("LATIN CAPITAL LETTER O WITH TILDE", 0x00D5),
   ("LATIN CAPITAL LETTER O WITH DIAERESIS", 0x00D6), ("MULTIPLICATION SIGN", 0x00D7),
   ("LATIN CAPITAL LETTER O WITH STROKE", 0x00D8), ("LATIN CAPITAL LETTER U WITH GRAVE", 0x00D9),
   ("LATIN CAPITAL LETTER U WITH ACUTE", 0x00DA),
   ("LATIN CAPITAL LETTER U WITH CIRCUMFLEX", 0x00DB),
   ("LATIN CAPITAL LETTER U WITH DIAERESIS", 0x00DC),
   ("LATIN CAPITAL LETTER Y WITH ACUTE", 0x00DD), ("LATIN CAPITAL LETTER THORN", 0x00DE),
   ("LATIN SMALL LETTER SHARP S", 0x00DF), ("LATIN SMALL LETTER A WITH GRAVE", 0x00E0),
   ("LATIN SMALL LETTER A WITH ACUTE", 0x00E1), ("LATIN SMALL LETTER A WITH CIRCUMFLEX", 0x00E2),
   ("LATIN SMALL LETTER A WITH TILDE", 0x00E3), ("LATIN SMALL LETTER A WITH DIAERESIS", 0x00E4),
   ("LATIN SMALL LETTER A WITH RING ABOVE", 0x00E5), ("LATIN SMALL LETTER AE", 0x00E6),
   ("LATIN SMALL LETTER C WITH CEDILLA", 0x00E7), ("LATIN SMALL LETTER E WITH GRAVE", 0x00E8),
   ("LATIN SMALL LETTER E WITH ACUTE", 0x00E9), ("LATIN SMALL LETTER E WITH CIRCUMFLEX", 0x00EA),
   ("LATIN SMALL LETTER E WITH DIAERESIS", 0x00EB), ("LATIN SMALL LETTER I WITH GRAVE", 0x00EC),
   ("LATIN SMALL LETTER I WITH ACUTE", 0x00ED), ("LATIN SMALL LETTER I WITH CIRCUMFLEX", 0x00EE),
   ("LATIN SMALL LETTER I WITH DIAERESIS", 0x00EF), ("LATIN SMALL LETTER ETH", 0x00F0),
   ("LATIN SMALL LETTER N WITH TILDE", 0x00F1), ("LATIN SMALL LETTER O WITH GRAVE", 0x00F2),
   ("LATIN SMALL LETTER O WITH ACUTE", 0x00F3), ("LATIN SMALL LETTER O WITH CIRCUMFLEX", 0x00F4),
   ("LATIN SMALL LETTER O WITH TILDE", 0x00F5), ("LATIN SMALL LETTER O WITH DIAERESIS", 0x00F6),
   ("DIVISION SIGN", 0x00F7), ("LATIN SMALL LETTER O WITH STROKE", 0x00F8),
   ("LATIN SMALL LETTER U WITH GRAVE", 0x00F9), ("LATIN SMALL LETTER U WITH ACUTE", 0x00FA),
   ("LATIN SMALL LETTER U WITH CIRCUMFLEX", 0x00FB),
   ("LATIN SMALL LETTER U WITH DIAERESIS", 0x00FC), ("LATIN SMALL LETTER Y WITH ACUTE", 0x00FD),
   ("LATIN SMALL LETTER THORN", 0x00FE), ("LATIN SMALL LETTER Y WITH DIAERESIS", 0x00FF),
   ("LATIN CAPITAL LETTER A WITH MACRON", 0x0100), ("LATIN SMALL LETTER A WITH MACRON", 0x0101),
   ("LATIN CAPITAL LETTER A WITH BREVE", 0x0102), ("LATIN SMALL LETTER A WITH BREVE", 0x0103),
   ("LATIN CAPITAL LETTER A WITH OGONEK", 0x0104), ("LATIN SMALL LETTER A WITH OGONEK", 0x0105),
   ("LATIN CAPITAL LETTER C WITH ACUTE", 0x0106), ("LATIN SMALL LETTER C WITH ACUTE", 0x0107),
   ("LATIN CAPITAL LETTER C WITH CIRCUMFLEX", 0x0108),
   ("LATIN SMALL LETTER C WITH CIRCUMFLEX", 0x0109),
   ("LATIN CAPITAL LETTER C WITH DOT ABOVE", 0x010A),
   ("LATIN SMALL LETTER C WITH DOT ABOVE", 0x010B), ("LATIN CAPITAL LETTER C WITH CARON", 0x010C),
   ("LATIN SMALL LETTER C WITH CARON", 0x010D), ("LATIN CAPITAL LETTER D WITH CARON", 0x010E),
   ("LATIN SMALL LETTER D WITH CARON", 0x010F), ("LATIN CAPITAL LETTER D WITH STROKE", 0x0110),
   ("LATIN SMALL LETTER D WITH STROKE", 0x0111), ("LATIN CAPITAL LETTER E WITH MACRON", 0x0112),
   ("LATIN SMALL LETTER E WITH MACRON", 0x0113), ("LATIN CAPITAL LETTER E WITH BREVE", 0x0114),
   ("LATIN SMALL LETTER E WITH BREVE", 0x0115), ("LATIN CAPITAL LETTER E WITH DOT ABOVE", 0x0116),
   ("LATIN SMALL LETTER E WITH DOT ABOVE", 0x0117), ("LATIN CAPITAL LETTER E WITH OGONEK", 0x0118),
   ("LATIN SMALL LETTER E WITH OGONEK", 0x0119), ("LATIN CAPITAL LETTER E WITH CARON", 0x011A),
   ("LATIN SMALL LETTER E WITH CARON", 0x011B), ("LATIN CAPITAL LETTER G WITH CIRCUMFLEX", 0x011C),
   ("LATIN SMALL LETTER G WITH CIRCUMFLEX", 0x011D), ("LATIN CAPITAL LETTER G WITH BREVE", 0x011E),
   ("LATIN SMALL LETTER G WITH BREVE", 0x011F), ("LATIN CAPITAL LETTER G WITH DOT ABOVE", 0x0120),
   ("LATIN SMALL LETTER G WITH DOT ABOVE", 0x0121),
   ("LATIN CAPITAL LETTER G WITH CEDILLA", 0x0122), ("LATIN SMALL LETTER G WITH CEDILLA", 0x0123),
   ("LATIN CAPITAL LETTER H WITH CIRCUMFLEX", 0x0124),
   ("LATIN SMALL LETTER H WITH CIRCUMFLEX", 0x0125),
   ("LATIN CAPITAL LETTER H WITH STROKE", 0x0126), ("LATIN SMALL LETTER H WITH STROKE", 0x0127),
   ("LATIN CAPITAL LETTER I WITH TILDE", 0x0128), ("LATIN SMALL LETTER I WITH TILDE", 0x0129),
   ("LATIN CAPITAL LETTER I WITH MACRON", 0x012A), ("LATIN SMALL LETTER I WITH MACRON", 0x012B),
   ("LATIN CAPITAL LETTER I WITH BREVE", 0x012C), ("LATIN SMALL LETTER I WITH BREVE", 0x012D),
   ("LATIN CAPITAL LETTER I WITH OGONEK", 0x012E), ("LATIN SMALL LETTER I WITH OGONEK", 0x012F),
   ("LATIN CAPITAL LETTER I WITH DOT ABOVE", 0x0130), ("LATIN SMALL LETTER DOTLESS I", 0x0131),
   ("LATIN CAPITAL LIGATURE IJ", 0x0132), ("LATIN SMALL LIGATURE IJ", 0x0133),
   ("LATIN CAPITAL LETTER J WITH CIRCUMFLEX", 0x0134),
   ("LATIN SMALL LETTER J WITH CIRCUMFLEX", 0x0135),
   ("LATIN CAPITAL LETTER K WITH CEDILLA", 0x0136), ("LATIN SMALL LETTER K WITH CEDILLA", 0x0137),
   ("LATIN SMALL LETTER KRA", 0x0138), ("LATIN CAPITAL LETTER L WITH ACUTE", 0x0139),
   ("LATIN SMALL LETTER L WITH ACUTE", 0x013A), ("LATIN CAPITAL LETTER L WITH CEDILLA", 0x013B),
   ("LATIN SMALL LETTER L WITH CEDILLA", 0x013C), ("LATIN CAPITAL LETTER L WITH CARON", 0x013D),
   ("LATIN SMALL LETTER L WITH CARON", 0x013E), ("LATIN CAPITAL LETTER L WITH MIDDLE DOT", 0x013F),
   ("LATIN SMALL LETTER L WITH MIDDLE DOT", 0x0140),
   ("LATIN CAPITAL LETTER L WITH STROKE", 0x0141), ("LATIN SMALL LETTER L WITH STROKE", 0x0142),
   ("LATIN CAPITAL LETTER N WITH ACUTE", 0x0143), ("LATIN SMALL LETTER N WITH ACUTE", 0x0144),
   ("LATIN CAPITAL LETTER N WITH CEDILLA", 0x0145), ("LATIN SMALL LETTER N WITH CEDILLA", 0x0146),
   ("LATIN CAPITAL LETTER N WITH CARON", 0x0147), ("LATIN SMALL LETTER N WITH CARON", 0x0148),
   ("LATIN SMALL LETTER N PRECEDED BY APOSTROPHE", 0x0149), ("LATIN CAPITAL LETTER ENG", 0x014A),
   ("LATIN SMALL LETTER ENG", 0x014B), ("LATIN CAPITAL LETTER O WITH MACRON", 0x014C),
   ("LATIN SMALL LETTER O WITH MACRON", 0x014D), ("LATIN CAPITAL LETTER O WITH BREVE", 0x014E),
   ("LATIN SMALL LETTER O WITH BREVE", 0x014F),
   ("LATIN CAPITAL LETTER O WITH DOUBLE ACUTE", 0x0150),
   ("LATIN SMALL LETTER O WITH DOUBLE ACUTE", 0x0151), ("LATIN CAPITAL LIGATURE OE", 0x0152),
   ("LATIN SMALL LIGATURE OE", 0x0153), ("LATIN CAPITAL LETTER R WITH ACUTE", 0x0154),
   ("LATIN SMALL LETTER R WITH ACUTE", 0x0155), ("LATIN CAPITAL LETTER R WITH CEDILLA", 0x0156),
   ("LATIN SMALL LETTER R WITH CEDILLA", 0x0157), ("LATIN CAPITAL LETTER R WITH CARON", 0x0158),
   ("LATIN SMALL LETTER R WITH CARON", 0x0159), ("LATIN CAPITAL LETTER S WITH ACUTE", 0x015A),
   ("LATIN SMALL LETTER S WITH ACUTE", 0x015B), ("LATIN CAPITAL LETTER S WITH CIRCUMFLEX", 0x015C),
   ("LATIN SMALL LETTER S WITH CIRCUMFLEX", 0x015D),
   ("LATIN CAPITAL LETTER S WITH CEDILLA", 0x015E), ("LATIN SMALL LETTER S WITH CEDILLA", 0x015F),
   ("LATIN CAPITAL LETTER S WITH CARON", 0x0160), ("LATIN SMALL LETTER S WITH CARON", 0x0161),
   ("LATIN CAPITAL LETTER T WITH CEDILLA", 0x0162), ("LATIN SMALL LETTER T WITH CEDILLA", 0x0163),
   ("LATIN CAPITAL LETTER T WITH CARON", 0x0164), ("LATIN SMALL LETTER T WITH CARON", 0x0165),
   ("LATIN CAPITAL LETTER T WITH STROKE", 0x0166), ("LATIN SMALL LETTER T WITH STROKE", 0x0167),
   ("LATIN CAPITAL LETTER U WITH TILDE", 0x0168), ("LATIN SMALL LETTER U WITH TILDE", 0x0169),
   ("LATIN CAPITAL LETTER U WITH MACRON", 0x016A), ("LATIN SMALL LETTER U WITH MACRON", 0x016B),
   ("LATIN CAPITAL LETTER U WITH BREVE", 0x016C), ("LATIN SMALL LETTER U WITH BREVE", 0x016D),
   ("LATIN CAPITAL LETTER U WITH RING ABOVE", 0x016E),
   ("LATIN SMALL LETTER U WITH RING ABOVE", 0x016F),
   ("LATIN CAPITAL LETTER U WITH DOUBLE ACUTE", 0x0170),
   ("LATIN SMALL LETTER U WITH DOUBLE ACUTE", 0x0171),
   ("LATIN CAPITAL LETTER U WITH OGONEK", 0x0172), ("LATIN SMALL LETTER U WITH OGONEK", 0x0173),
   ("LATIN CAPITAL LETTER W WITH CIRCUMFLEX", 0x0174),
   ("LATIN SMALL LETTER W WITH CIRCUMFLEX", 0x0175),
   ("LATIN CAPITAL LETTER Y WITH CIRCUMFLEX", 0x0176),
   ("LATIN SMALL LETTER Y WITH CIRCUMFLEX", 0x0177),
   ("LATIN CAPITAL LETTER Y WITH DIAERESIS", 0x0178),
   ("LATIN CAPITAL LETTER Z WITH ACUTE", 0x0179), ("LATIN SMALL LETTER Z WITH ACUTE", 0x017A),
   ("LATIN CAPITAL LETTER Z WITH DOT ABOVE", 0x017B),
   ("LATIN SMALL LETTER Z WITH DOT ABOVE", 0x017C), ("LATIN CAPITAL LETTER Z WITH CARON", 0x017D),
   ("LATIN SMALL LETTER Z WITH CARON", 0x017E), ("LATIN SMALL LETTER LONG S", 0x017F),
   ("GREEK CAPITAL LETTER ALPHA", 0x0391), ("GREEK CAPITAL LETTER BETA", 0x0392),
   ("GREEK CAPITAL LETTER GAMMA", 0x0393), ("GREEK CAPITAL LETTER DELTA", 0x0394),
   ("GREEK CAPITAL LETTER EPSILON", 0x0395), ("GREEK CAPITAL LETTER ZETA", 0x0396),
   ("GREEK CAPITAL LETTER ETA", 0x0397), ("GREEK CAPITAL LETTER THETA", 0x0398),
   ("GREEK CAPITAL LETTER IOTA", 0x0399), ("GREEK CAPITAL LETTER KAPPA", 0x039A),
   ("GREEK CAPITAL LETTER LAMDA", 0x039B), ("GREEK CAPITAL LETTER MU", 0x039C),
   ("GREEK CAPITAL LETTER NU", 0x039D), ("GREEK CAPITAL LETTER XI", 0x039E),
   ("GREEK CAPITAL LETTER OMICRON", 0x039F), ("GREEK CAPITAL LETTER PI", 0x03A0),
   ("GREEK CAPITAL LETTER RHO", 0x03A1), ("GREEK CAPITAL LETTER SIGMA", 0x03A3),
   ("GREEK CAPITAL LETTER TAU", 0x03A4), ("GREEK CAPITAL LETTER UPSILON", 0x03A5),
   ("GREEK CAPITAL LETTER PHI", 0x03A6), ("GREEK CAPITAL LETTER CHI", 0x03A7),
   ("GREEK CAPITAL LETTER PSI", 0x03A8), ("GREEK CAPITAL LETTER OMEGA", 0x03A9),
   ("GREEK CAPITAL LETTER IOTA WITH DIALYTIKA", 0x03AA),
   ("GREEK CAPITAL LETTER UPSILON WITH DIALYTIKA", 0x03AB),
   ("GREEK SMALL LETTER ALPHA WITH TONOS", 0x03AC),
   ("GREEK SMALL LETTER EPSILON WITH TONOS", 0x03AD),
   ("GREEK SMALL LETTER ETA WITH TONOS", 0x03AE), ("GREEK SMALL LETTER IOTA WITH TONOS", 0x03AF),
   ("GREEK SMALL LETTER UPSILON WITH DIALYTIKA AND TONOS", 0x03B0),
   ("GREEK SMALL LETTER ALPHA", 0x03B1), ("GREEK SMALL LETTER BETA", 0x03B2),
   ("GREEK SMALL LETTER GAMMA", 0x03B3), ("GREEK SMALL LETTER DELTA", 0x03B4),
   ("GREEK SMALL LETTER EPSILON", 0x03B5), ("GREEK SMALL LETTER ZETA", 0x03B6),
   ("GREEK SMALL LETTER ETA", 0x03B7), ("GREEK SMALL LETTER THETA", 0x03B8),
   ("GREEK SMALL LETTER IOTA", 0x03B9), ("GREEK SMALL LETTER KAPPA", 0x03BA),
   ("GREEK SMALL LETTER LAMDA", 0x03BB), ("GREEK SMALL LETTER MU", 0x03BC),
   ("GREEK SMALL LETTER NU", 0x03BD), ("GREEK SMALL LETTER XI", 0x03BE),
   ("GREEK SMALL LETTER OMICRON", 0x03BF), ("GREEK SMALL LETTER PI", 0x03C0),
   ("GREEK SMALL LETTER RHO", 0x03C1), ("GREEK SMALL LETTER FINAL SIGMA", 0x03C2),
   ("GREEK SMALL LETTER SIGMA", 0x03C3), ("GREEK SMALL LETTER TAU", 0x03C4),
   ("GREEK SMALL LETTER UPSILON", 0x03C5), ("GREEK SMALL LETTER PHI", 0x03C6),
   ("GREEK SMALL LETTER CHI", 0x03C7), ("GREEK SMALL LETTER PSI", 0x03C8),
   ("GREEK SMALL LETTER OMEGA", 0x03C9), ("ZERO WIDTH SPACE", 0x200B),
   ("ZERO WIDTH NON-JOINER", 0x200C), ("ZERO WIDTH JOINER", 0x200D),
   ("LEFT-TO-RIGHT MARK", 0x200E), ("RIGHT-TO-LEFT MARK", 0x200F), ("HYPHEN", 0x2010),
   ("NON-BREAKING HYPHEN", 0x2011), ("FIGURE DASH", 0x2012), ("EN DASH", 0x2013),
   ("EM DASH", 0x2014), ("HORIZONTAL BAR", 0x2015), ("DOUBLE VERTICAL LINE", 0x2016),
   ("DOUBLE LOW LINE", 0x2017), ("LEFT SINGLE QUOTATION MARK", 0x2018),
   ("RIGHT SINGLE QUOTATION MARK", 0x2019), ("SINGLE LOW-9 QUOTATION MARK", 0x201A),
   ("SINGLE HIGH-REVERSED-9 QUOTATION MARK", 0x201B), ("LEFT DOUBLE QUOTATION MARK", 0x201C),
   ("RIGHT DOUBLE QUOTATION MARK", 0x201D), ("DOUBLE LOW-9 QUOTATION MARK", 0x201E),
   ("DOUBLE HIGH-REVERSED-9 QUOTATION MARK", 0x201F), ("DAGGER", 0x2020),
   ("DOUBLE DAGGER", 0x2021), ("BULLET", 0x2022), ("TRIANGULAR BULLET", 0x2023),
   ("ONE DOT LEADER", 0x2024), ("TWO DOT LEADER", 0x2025), ("HORIZONTAL ELLIPSIS", 0x2026),
   ("HYPHENATION POINT", 0x2027), ("NARROW NO-BREAK SPACE", 0x202F), ("PER MILLE SIGN", 0x2030),
   ("PER TEN THOUSAND SIGN", 0x2031), ("PRIME", 0x2032), ("DOUBLE PRIME", 0x2033),
   ("TRIPLE PRIME", 0x2034), ("REVERSED PRIME", 0x2035), ("REVERSED DOUBLE PRIME", 0x2036),
   ("REVERSED TRIPLE PRIME", 0x2037), ("CARET", 0x2038),
   ("SINGLE LEFT-POINTING ANGLE QUOTATION MARK", 0x2039),
   ("SINGLE RIGHT-POINTING ANGLE QUOTATION MARK", 0x203A), ("REFERENCE MARK", 0x203B),
   ("DOUBLE EXCLAMATION MARK", 0x203C), ("INTERROBANG", 0x203D), ("OVERLINE", 0x203E),
   ("UNDERTIE", 0x203F), ("CHARACTER TIE", 0x2040), ("CARET INSERTION POINT", 0x2041),
   ("ASTERISM", 0x2042), ("HYPHEN BULLET", 0x2043), ("FRACTION SLASH", 0x2044),
   ("LEFT SQUARE BRACKET WITH QUILL", 0x2045), ("RIGHT SQUARE BRACKET WITH QUILL", 0x2046),
   ("DOUBLE QUESTION MARK", 0x2047), ("QUESTION EXCLAMATION MARK", 0x2048),
   ("EXCLAMATION QUESTION MARK", 0x2049), ("TIRONIAN SIGN ET", 0x204A),
   ("REVERSED PILCROW SIGN", 0x204B), ("BLACK LEFTWARDS BULLET", 0x204C),
   ("BLACK RIGHTWARDS BULLET", 0x204D), ("LOW ASTERISK", 0x204E), ("REVERSED SEMICOLON", 0x204F),
   ("CLOSE UP", 0x2050), ("TWO ASTERISKS ALIGNED VERTICALLY", 0x2051),
   ("COMMERCIAL MINUS SIGN", 0x2052), ("SWUNG DASH", 0x2053), ("INVERTED UNDERTIE", 0x2054),
   ("FLOWER PUNCTUATION MARK", 0x2055), ("THREE DOT PUNCTUATION", 0x2056),
   ("QUADRUPLE PRIME", 0x2057), ("FOUR DOT PUNCTUATION", 0x2058), ("FIVE DOT PUNCTUATION", 0x2059),
   ("TWO DOT PUNCTUATION", 0x205A), ("FOUR DOT MARK", 0x205B), ("DOTTED CROSS", 0x205C),
   ("TRICOLON", 0x205D), ("VERTICAL FOUR DOTS", 0x205E), ("EURO-CURRENCY SIGN", 0x20A0),
   ("COLON SIGN", 0x20A1), ("CRUZEIRO SIGN", 0x20A2), ("FRENCH FRANC SIGN", 0x20A3),
   ("LIRA SIGN", 0x20A4), ("MILL SIGN", 0x20A5), ("NAIRA SIGN", 0x20A6), ("PESETA SIGN", 0x20A7),
   ("RUPEE SIGN", 0x20A8), ("WON SIGN", 0x20A9), ("NEW SHEQEL SIGN", 0x20AA),
   ("DONG SIGN", 0x20AB), ("EURO SIGN", 0x20AC), ("KIP SIGN", 0x20AD), ("TUGRIK SIGN", 0x20AE),
   ("DRACHMA SIGN", 0x20AF), ("GERMAN PENNY SIGN", 0x20B0), ("PESO SIGN", 0x20B1),
   ("GUARANI SIGN", 0x20B2), ("AUSTRAL SIGN", 0x20B3), ("HRYVNIA SIGN", 0x20B4),
   ("CEDI SIGN", 0x20B5), ("LIVRE TOURNOIS SIGN", 0x20B6), ("SPESMILO SIGN", 0x20B7),
   ("TENGE SIGN", 0x20B8), ("INDIAN RUPEE SIGN", 0x20B9), ("TURKISH LIRA SIGN", 0x20BA),
   ("NORDIC MARK SIGN", 0x20BB), ("MANAT SIGN", 0x20BC), ("RUBLE SIGN", 0x20BD),
   ("LARI SIGN", 0x20BE), ("BITCOIN SIGN", 0x20BF), ("TRADE MARK SIGN", 0x2122),
   ("OHM SIGN", 0x2126), ("KELVIN SIGN", 0x212A), ("ANGSTROM SIGN", 0x212B),
   ("LEFTWARDS ARROW", 0x2190), ("UPWARDS ARROW", 0x2191), ("RIGHTWARDS ARROW", 0x2192),
   ("DOWNWARDS ARROW", 0x2193), ("LEFT RIGHT ARROW", 0x2194), ("UP DOWN ARROW", 0x2195),
   ("NORTH WEST ARROW", 0x2196), ("NORTH EAST ARROW", 0x2197), ("SOUTH EAST ARROW", 0x2198),
   ("SOUTH WEST ARROW", 0x2199), ("LEFTWARDS ARROW WITH STROKE", 0x219A),
   ("RIGHTWARDS ARROW WITH STROKE", 0x219B), ("LEFTWARDS WAVE ARROW", 0x219C),
   ("RIGHTWARDS WAVE ARROW", 0x219D), ("LEFTWARDS TWO HEADED ARROW", 0x219E),
   ("UPWARDS TWO HEADED ARROW", 0x219F), ("FOR ALL", 0x2200), ("COMPLEMENT", 0x2201),
   ("PARTIAL DIFFERENTIAL", 0x2202), ("THERE EXISTS", 0x2203), ("THERE DOES NOT EXIST", 0x2204),
   ("EMPTY SET", 0x2205), ("INCREMENT", 0x2206), ("NABLA", 0x2207), ("ELEMENT OF", 0x2208),
   ("NOT AN ELEMENT OF", 0x2209), ("SMALL ELEMENT OF", 0x220A), ("CONTAINS AS MEMBER", 0x220B),
   ("DOES NOT CONTAIN AS MEMBER", 0x220C), ("SMALL CONTAINS AS MEMBER", 0x220D),
   ("END OF PROOF", 0x220E), ("N-ARY PRODUCT", 0x220F), ("N-ARY COPRODUCT", 0x2210),
   ("N-ARY SUMMATION", 0x2211), ("SQUARE ROOT", 0x221A), ("INFINITY", 0x221E),
   ("NOT EQUAL TO", 0x2260), ("LESS-THAN OR EQUAL TO", 0x2264),
   ("GREATER-THAN OR EQUAL TO", 0x2265), ("BLACK SQUARE", 0x25A0), ("BLACK CIRCLE", 0x25CF),
   ("SNOWMAN", 0x2603), ("BLACK STAR", 0x2605), ("SKULL AND CROSSBONES", 0x2620),
   ("CHECK MARK", 0x2713), ("HEAVY CHECK MARK", 0x2714), ("HEAVY BLACK HEART", 0x2764),
   ("IDEOGRAPHIC SPACE", 0x3000), ("HIRAGANA LETTER A", 0x3042),
   ("ZERO WIDTH NO-BREAK SPACE", 0xFEFF), ("REPLACEMENT CHARACTER", 0xFFFD), ("SNAKE", 0x1F40D),
   ("PILE OF POO", 0x1F4A9), ("GRINNING FACE", 0x1F600)]

/-- The character with a name in the table, written in letters of either case. -/
def characterNamed? (name : List Char) : Option Char :=
  (characterNames.lookup (String.ofList (name.map Char.toUpper))).map Char.ofNat

def firstSurrogate : Nat := 0xd800

def surrogateCount : Nat := 0x800

def firstStandIn : Nat := 0xfd800

/-- The character that stands in for a lone surrogate. -/
def standIn (code : Nat) : Char :=
  Char.ofNat (firstStandIn + (code - firstSurrogate) % surrogateCount)

theorem toNat_standIn (code : Nat) :
    (standIn code).toNat = firstStandIn + (code - firstSurrogate) % surrogateCount := by
  have hlt : (code - firstSurrogate) % surrogateCount < 0x800 := Nat.mod_lt _ (by decide)
  have hvalid : (firstStandIn + (code - firstSurrogate) % surrogateCount).isValidChar :=
    .inr ⟨by simp only [firstStandIn]; omega, by simp only [firstStandIn]; omega⟩
  rw [standIn, Char.ofNat, dif_pos hvalid]
  rfl

/-- The number of the surrogate that a character stands in for. -/
def surrogateOf? (c : Char) : Option Nat :=
  if firstStandIn ≤ c.toNat ∧ c.toNat < firstStandIn + surrogateCount then
    some (firstSurrogate + (c.toNat - firstStandIn))
  else none

/-- The names of the table, and stand-ins from the end of a private plane. -/
def Characters.standard : Characters where
  named := characterNamed?
  surrogate := standIn
  beyond code := by
    rw [toNat_standIn, firstStandIn]
    omega

end Bundler.Text
