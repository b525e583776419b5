/-!
Tables of pictographs: which code points are shown as pictures, and which regions have flags.

All numbers are code points. Every table of ranges is in ascending order.
-/

namespace FileProfile

namespace Emoji

/-- Code points that are shown as pictures of themselves. -/
def pictures : List (Nat × Nat) :=
  [(0x231A, 0x231B), (0x23E9, 0x23EC), (0x23F0, 0x23F0), (0x23F3, 0x23F3), (0x25FD, 0x25FE),
   (0x2614, 0x2615), (0x2648, 0x2653), (0x267F, 0x267F), (0x2693, 0x2693), (0x26A1, 0x26A1),
   (0x26AA, 0x26AB), (0x26BD, 0x26BE), (0x26C4, 0x26C5), (0x26CE, 0x26CE), (0x26D4, 0x26D4),
   (0x26EA, 0x26EA), (0x26F2, 0x26F3), (0x26F5, 0x26F5), (0x26FA, 0x26FA), (0x26FD, 0x26FD),
   (0x2705, 0x2705), (0x270A, 0x270B), (0x2728, 0x2728), (0x274C, 0x274C), (0x274E, 0x274E),
   (0x2753, 0x2755), (0x2757, 0x2757), (0x2795, 0x2797), (0x27B0, 0x27B0), (0x27BF, 0x27BF),
   (0x2B1B, 0x2B1C), (0x2B50, 0x2B50), (0x2B55, 0x2B55), (0x1F004, 0x1F004), (0x1F0CF, 0x1F0CF),
   (0x1F18E, 0x1F18E), (0x1F191, 0x1F19A), (0x1F1E6, 0x1F1FF), (0x1F201, 0x1F201),
   (0x1F21A, 0x1F21A), (0x1F22F, 0x1F22F), (0x1F232, 0x1F236), (0x1F238, 0x1F23A),
   (0x1F250, 0x1F251), (0x1F300, 0x1F320), (0x1F32D, 0x1F335), (0x1F337, 0x1F37C),
   (0x1F37E, 0x1F393), (0x1F3A0, 0x1F3CA), (0x1F3CF, 0x1F3D3), (0x1F3E0, 0x1F3F0),
   (0x1F3F4, 0x1F3F4), (0x1F3F8, 0x1F43E), (0x1F440, 0x1F440), (0x1F442, 0x1F4FC),
   (0x1F4FF, 0x1F53D), (0x1F54B, 0x1F54E), (0x1F550, 0x1F567), (0x1F57A, 0x1F57A),
   (0x1F595, 0x1F596), (0x1F5A4, 0x1F5A4), (0x1F5FB, 0x1F64F), (0x1F680, 0x1F6C5),
   (0x1F6CC, 0x1F6CC), (0x1F6D0, 0x1F6D2), (0x1F6D5, 0x1F6D7), (0x1F6EB, 0x1F6EC),
   (0x1F6F4, 0x1F6FC), (0x1F7E0, 0x1F7EB), (0x1F90C, 0x1F93A), (0x1F93C, 0x1F945),
   (0x1F947, 0x1F978), (0x1F97A, 0x1F9CB), (0x1F9CD, 0x1F9FF), (0x1FA70, 0x1FA74),
   (0x1FA78, 0x1FA7A), (0x1FA80, 0x1FA86), (0x1FA90, 0x1FAA8), (0x1FAB0, 0x1FAB6),
   (0x1FAC0, 0x1FAC2), (0x1FAD0, 0x1FAD6)]

/-- Code points that are shown as pictures where a selector follows. -/
def selectable : List (Nat × Nat) :=
  [(0x23, 0x23), (0x2A, 0x2A), (0x30, 0x39), (0xA9, 0xA9), (0xAE, 0xAE), (0x203C, 0x203C),
   (0x2049, 0x2049), (0x2122, 0x2122), (0x2139, 0x2139), (0x2194, 0x2199), (0x21A9, 0x21AA),
   (0x2328, 0x2328), (0x23CF, 0x23CF), (0x23ED, 0x23EF), (0x23F1, 0x23F2), (0x23F8, 0x23FA),
   (0x24C2, 0x24C2), (0x25AA, 0x25AB), (0x25B6, 0x25B6), (0x25C0, 0x25C0), (0x25FB, 0x25FC),
   (0x2600, 0x2604), (0x260E, 0x260E), (0x2611, 0x2611), (0x2618, 0x2618), (0x261D, 0x261D),
   (0x2620, 0x2620), (0x2622, 0x2623), (0x2626, 0x2626), (0x262A, 0x262A), (0x262E, 0x262F),
   (0x2638, 0x263A), (0x2640, 0x2640), (0x2642, 0x2642), (0x265F, 0x2660), (0x2663, 0x2663),
   (0x2665, 0x2666), (0x2668, 0x2668), (0x267B, 0x267B), (0x267E, 0x267E), (0x2692, 0x2692),
   (0x2694, 0x2697), (0x2699, 0x2699), (0x269B, 0x269C), (0x26A0, 0x26A0), (0x26A7, 0x26A7),
   (0x26B0, 0x26B1), (0x26C8, 0x26C8), (0x26CF, 0x26CF), (0x26D1, 0x26D1), (0x26D3, 0x26D3),
   (0x26E9, 0x26E9), (0x26F0, 0x26F1), (0x26F4, 0x26F4), (0x26F7, 0x26F9), (0x2702, 0x2702),
   (0x2708, 0x2709), (0x270C, 0x270D), (0x270F, 0x270F), (0x2712, 0x2712), (0x2714, 0x2714),
   (0x2716, 0x2716), (0x271D, 0x271D), (0x2721, 0x2721), (0x2733, 0x2734), (0x2744, 0x2744),
   (0x2747, 0x2747), (0x2763, 0x2764), (0x27A1, 0x27A1), (0x2934, 0x2935), (0x2B05, 0x2B07),
   (0x3030, 0x3030), (0x303D, 0x303D), (0x3297, 0x3297), (0x3299, 0x3299), (0x1F170, 0x1F171),
   (0x1F17E, 0x1F17F), (0x1F202, 0x1F202), (0x1F237, 0x1F237), (0x1F321, 0x1F321),
   (0x1F324, 0x1F32C), (0x1F336, 0x1F336), (0x1F37D, 0x1F37D), (0x1F396, 0x1F397),
   (0x1F399, 0x1F39B), (0x1F39E, 0x1F39F), (0x1F3CB, 0x1F3CE), (0x1F3D4, 0x1F3DF),
   (0x1F3F3, 0x1F3F3), (0x1F3F5, 0x1F3F5), (0x1F3F7, 0x1F3F7), (0x1F43F, 0x1F43F),
   (0x1F441, 0x1F441), (0x1F4FD, 0x1F4FD), (0x1F549, 0x1F54A), (0x1F56F, 0x1F570),
   (0x1F573, 0x1F579), (0x1F587, 0x1F587), (0x1F58A, 0x1F58D), (0x1F590, 0x1F590),
   (0x1F5A5, 0x1F5A5), (0x1F5A8, 0x1F5A8), (0x1F5B1, 0x1F5B2), (0x1F5BC, 0x1F5BC),
   (0x1F5C2, 0x1F5C4), (0x1F5D1, 0x1F5D3), (0x1F5DC, 0x1F5DE), (0x1F5E1, 0x1F5E1),
   (0x1F5E3, 0x1F5E3), (0x1F5E8, 0x1F5E8), (0x1F5EF, 0x1F5EF), (0x1F5F3, 0x1F5F3),
   (0x1F5FA, 0x1F5FA), (0x1F6CB, 0x1F6CB), (0x1F6CD, 0x1F6CF), (0x1F6E0, 0x1F6E5),
   (0x1F6E9, 0x1F6E9), (0x1F6F0, 0x1F6F0), (0x1F6F3, 0x1F6F3)]

/-- Code points whose skin tone a modifier sets. -/
def toned : List (Nat × Nat) :=
  [(0x261D, 0x261D), (0x26F9, 0x26F9), (0x270A, 0x270D), (0x1F385, 0x1F385), (0x1F3C2, 0x1F3C4),
   (0x1F3C7, 0x1F3C7), (0x1F3CA, 0x1F3CC), (0x1F442, 0x1F443), (0x1F446, 0x1F450),
   (0x1F466, 0x1F469), (0x1F46B, 0x1F46E), (0x1F470, 0x1F478), (0x1F47C, 0x1F47C),
   (0x1F481, 0x1F483), (0x1F485, 0x1F487), (0x1F48F, 0x1F48F), (0x1F491, 0x1F491),
   (0x1F4AA, 0x1F4AA), (0x1F574, 0x1F575), (0x1F57A, 0x1F57A), (0x1F590, 0x1F590),
   (0x1F595, 0x1F596), (0x1F645, 0x1F647), (0x1F64B, 0x1F64F), (0x1F6A3, 0x1F6A3),
   (0x1F6B4, 0x1F6B6), (0x1F6C0, 0x1F6C0), (0x1F6CC, 0x1F6CC), (0x1F90C, 0x1F90C),
   (0x1F90F, 0x1F90F), (0x1F918, 0x1F91C), (0x1F91E, 0x1F91F), (0x1F926, 0x1F926),
   (0x1F930, 0x1F939), (0x1F93D, 0x1F93E), (0x1F977, 0x1F977), (0x1F9B5, 0x1F9B6),
   (0x1F9B8, 0x1F9B9), (0x1F9BB, 0x1F9BB), (0x1F9CD, 0x1F9CF), (0x1F9D1, 0x1F9DD)]

/-- The second letters of regions with a flag, by the first letter. -/
def regions : List (Char × String) :=
  [('A', "CDEFGILMOQRSTUWXZ"), ('B', "ABDEFGHIJLMNOQRSTVWYZ"), ('C', "ACDFGHIKLMNOPRUVWXYZ"),
   ('D', "EGJKMOZ"), ('E', "ACEGHRSTU"), ('F', "IJKMOR"), ('G', "ABDEFGHILMNPQRSTUWY"),
   ('H', "KMNRTU"), ('I', "CDELMNOQRST"), ('J', "EMOP"), ('K', "EGHIMNPRWYZ"),
   ('L', "ABCIKRSTUVY"), ('M', "ACDEFGHKLMNOPQRSTUVWXYZ"), ('N', "ACEFGILOPRUZ"), ('O', "M"),
   ('P', "AEFGHKLMNRSTWY"), ('Q', "A"), ('R', "EOSUW"), ('S', "ABCDEGHIJKLMNORSTVXYZ"),
   ('T', "ACDFGHJKLMNORTVWZ"), ('U', "AGMNSYZ"), ('V', "ACEGINU"), ('W', "FS"), ('X', "K"),
   ('Y', "ET"), ('Z', "AMW")]

/-- What people hold, wear or work with where it needs no selector: sheaf, pan, bottle, cap,
microphone, palette, school, factory, computer, briefcase, wrench, microscope, rocket, fire engine,
cane, wheelchairs and kinds of hair. -/
def attributes : List Nat :=
  [0x1F33E, 0x1F373, 0x1F37C, 0x1F393, 0x1F3A4, 0x1F3A8, 0x1F3EB, 0x1F3ED, 0x1F4BB, 0x1F4BC,
   0x1F527, 0x1F52C, 0x1F680, 0x1F692, 0x1F9AF, 0x1F9BC, 0x1F9BD, 0x1F9B0, 0x1F9B1, 0x1F9B2,
   0x1F9B3]

/-- The same where a selector follows: staff, scales and aeroplane. -/
def selectedAttributes : List Nat := [0x2695, 0x2696, 0x2708]

/-- People whose gender a sign behind them sets. -/
def gendered : List Nat :=
  [0x1F3C3, 0x1F3C4, 0x1F3CA, 0x1F46E, 0x1F470, 0x1F471, 0x1F473, 0x1F477, 0x1F481, 0x1F482,
   0x1F486, 0x1F487, 0x1F645, 0x1F646, 0x1F647, 0x1F64B, 0x1F64D, 0x1F64E, 0x1F6A3, 0x1F6B4,
   0x1F6B5, 0x1F6B6, 0x1F926, 0x1F935, 0x1F937, 0x1F938, 0x1F939, 0x1F93D, 0x1F93E, 0x1F9B8,
   0x1F9B9, 0x1F9CD, 0x1F9CE, 0x1F9CF, 0x1F9D4, 0x1F9D6, 0x1F9D7, 0x1F9D8, 0x1F9D9, 0x1F9DA,
   0x1F9DB, 0x1F9DC, 0x1F9DD]

/-- The same where a selector stands in place of a skin tone. -/
def selectedGendered : List Nat := [0x26F9, 0x1F3CB, 0x1F3CC, 0x1F575]

/-- The same without skin tones. -/
def tonelessGendered : List Nat := [0x1F46F, 0x1F93C, 0x1F9DE, 0x1F9DF]

/-- Further sequences: flags, animals, an eye in a bubble, hearts and faces. -/
def furtherSequences : List (List Nat) :=
  [[0x1F3F3, 0xFE0F, 0x200D, 0x26A7, 0xFE0F], [0x1F3F3, 0xFE0F, 0x200D, 0x1F308],
   [0x1F3F4, 0x200D, 0x2620, 0xFE0F], [0x1F408, 0x200D, 0x2B1B], [0x1F415, 0x200D, 0x1F9BA],
   [0x1F43B, 0x200D, 0x2744, 0xFE0F], [0x1F441, 0xFE0F, 0x200D, 0x1F5E8, 0xFE0F],
   [0x1F62E, 0x200D, 0x1F4A8], [0x1F635, 0x200D, 0x1F4AB],
   [0x1F636, 0x200D, 0x1F32B, 0xFE0F], [0x2764, 0xFE0F, 0x200D, 0x1F525],
   [0x2764, 0xFE0F, 0x200D, 0x1FA79], [0x1F9D1, 0x200D, 0x1F384]]

/-- The flags of England, Scotland and Wales: a flag, the letters of the region as tags, and a tag
that ends them. -/
def subdivisionFlags : List (List Nat) :=
  [[0xE0065, 0xE006E, 0xE0067], [0xE0073, 0xE0063, 0xE0074], [0xE0077, 0xE006C, 0xE0073]].map
    fun tags => [0x1F3F4, 0xE0067, 0xE0062] ++ tags ++ [0xE007F]

end Emoji

end FileProfile
