import StyleGraph.Css.Token
import StyleGraph.Number.Power
import StyleGraph.Text.Quoted

/-!
# Colors

Colors as channels, and their shortest written form: a name if it is shorter than the digits, else
three or four digits where they say the same as six or eight. Colors whose channels are not known
here, such as the current color, keep their name.
-/

set_option autoImplicit false

namespace StyleGraph.Css

/-- A color. -/
inductive Color
  /-- The current text color. -/
  | current
  /-- Channels from 0 to 255; opaque colors have the highest alpha. -/
  | rgba (red green blue alpha : Nat)
  deriving DecidableEq, Repr, Inhabited

namespace Color

/-- The named colors and their channels as one number. -/
def names : List (String × Nat) :=
  [("aliceblue", 0xf0f8ff), ("antiquewhite", 0xfaebd7), ("aqua", 0x00ffff),
   ("aquamarine", 0x7fffd4), ("azure", 0xf0ffff), ("beige", 0xf5f5dc), ("bisque", 0xffe4c4),
   ("black", 0x000000), ("blanchedalmond", 0xffebcd), ("blue", 0x0000ff),
   ("blueviolet", 0x8a2be2), ("brown", 0xa52a2a), ("burlywood", 0xdeb887),
   ("cadetblue", 0x5f9ea0), ("chartreuse", 0x7fff00), ("chocolate", 0xd2691e),
   ("coral", 0xff7f50), ("cornflowerblue", 0x6495ed), ("cornsilk", 0xfff8dc),
   ("crimson", 0xdc143c), ("cyan", 0x00ffff), ("darkblue", 0x00008b), ("darkcyan", 0x008b8b),
   ("darkgoldenrod", 0xb8860b), ("darkgray", 0xa9a9a9), ("darkgreen", 0x006400),
   ("darkgrey", 0xa9a9a9), ("darkkhaki", 0xbdb76b), ("darkmagenta", 0x8b008b),
   ("darkolivegreen", 0x556b2f), ("darkorange", 0xff8c00), ("darkorchid", 0x9932cc),
   ("darkred", 0x8b0000), ("darksalmon", 0xe9967a), ("darkseagreen", 0x8fbc8f),
   ("darkslateblue", 0x483d8b), ("darkslategray", 0x2f4f4f), ("darkslategrey", 0x2f4f4f),
   ("darkturquoise", 0x00ced1), ("darkviolet", 0x9400d3), ("deeppink", 0xff1493),
   ("deepskyblue", 0x00bfff), ("dimgray", 0x696969), ("dimgrey", 0x696969),
   ("dodgerblue", 0x1e90ff), ("firebrick", 0xb22222), ("floralwhite", 0xfffaf0),
   ("forestgreen", 0x228b22), ("fuchsia", 0xff00ff), ("gainsboro", 0xdcdcdc),
   ("ghostwhite", 0xf8f8ff), ("gold", 0xffd700), ("goldenrod", 0xdaa520), ("gray", 0x808080),
   ("green", 0x008000), ("greenyellow", 0xadff2f), ("grey", 0x808080), ("honeydew", 0xf0fff0),
   ("hotpink", 0xff69b4), ("indianred", 0xcd5c5c), ("indigo", 0x4b0082), ("ivory", 0xfffff0),
   ("khaki", 0xf0e68c), ("lavender", 0xe6e6fa), ("lavenderblush", 0xfff0f5),
   ("lawngreen", 0x7cfc00), ("lemonchiffon", 0xfffacd), ("lightblue", 0xadd8e6),
   ("lightcoral", 0xf08080), ("lightcyan", 0xe0ffff), ("lightgoldenrodyellow", 0xfafad2),
   ("lightgray", 0xd3d3d3), ("lightgreen", 0x90ee90), ("lightgrey", 0xd3d3d3),
   ("lightpink", 0xffb6c1), ("lightsalmon", 0xffa07a), ("lightseagreen", 0x20b2aa),
   ("lightskyblue", 0x87cefa), ("lightslategray", 0x778899), ("lightslategrey", 0x778899),
   ("lightsteelblue", 0xb0c4de), ("lightyellow", 0xffffe0), ("lime", 0x00ff00),
   ("limegreen", 0x32cd32), ("linen", 0xfaf0e6), ("magenta", 0xff00ff), ("maroon", 0x800000),
   ("mediumaquamarine", 0x66cdaa), ("mediumblue", 0x0000cd), ("mediumorchid", 0xba55d3),
   ("mediumpurple", 0x9370db), ("mediumseagreen", 0x3cb371), ("mediumslateblue", 0x7b68ee),
   ("mediumspringgreen", 0x00fa9a), ("mediumturquoise", 0x48d1cc), ("mediumvioletred", 0xc71585),
   ("midnightblue", 0x191970), ("mintcream", 0xf5fffa), ("mistyrose", 0xffe4e1),
   ("moccasin", 0xffe4b5), ("navajowhite", 0xffdead), ("navy", 0x000080), ("oldlace", 0xfdf5e6),
   ("olive", 0x808000), ("olivedrab", 0x6b8e23), ("orange", 0xffa500), ("orangered", 0xff4500),
   ("orchid", 0xda70d6), ("palegoldenrod", 0xeee8aa), ("palegreen", 0x98fb98),
   ("paleturquoise", 0xafeeee), ("palevioletred", 0xdb7093), ("papayawhip", 0xffefd5),
   ("peachpuff", 0xffdab9), ("peru", 0xcd853f), ("pink", 0xffc0cb), ("plum", 0xdda0dd),
   ("powderblue", 0xb0e0e6), ("purple", 0x800080), ("rebeccapurple", 0x663399), ("red", 0xff0000),
   ("rosybrown", 0xbc8f8f), ("royalblue", 0x4169e1), ("saddlebrown", 0x8b4513),
   ("salmon", 0xfa8072), ("sandybrown", 0xf4a460), ("seagreen", 0x2e8b57), ("seashell", 0xfff5ee),
   ("sienna", 0xa0522d), ("silver", 0xc0c0c0), ("skyblue", 0x87ceeb), ("slateblue", 0x6a5acd),
   ("slategray", 0x708090), ("slategrey", 0x708090), ("snow", 0xfffafa),
   ("springgreen", 0x00ff7f), ("steelblue", 0x4682b4), ("tan", 0xd2b48c), ("teal", 0x008080),
   ("thistle", 0xd8bfd8), ("tomato", 0xff6347), ("turquoise", 0x40e0d0), ("violet", 0xee82ee),
   ("wheat", 0xf5deb3), ("white", 0xffffff), ("whitesmoke", 0xf5f5f5), ("yellow", 0xffff00),
   ("yellowgreen", 0x9acd32)]

/-- The color of a number whose bytes are the channels. -/
def ofNumber (n : Nat) : Color := .rgba (n / 65536 % 256) (n / 256 % 256) (n % 256) 255

/-- The color of a name. -/
def ofName? (name : String) : Option Color :=
  let name := String.ofList (name.toList.map Char.toLower)
  if name == "transparent" then some (.rgba 0 0 0 0)
  else if name == "currentcolor" then some .current
  else (names.find? fun entry => entry.1 == name).map fun entry => ofNumber entry.2

/-- The color of three, four, six or eight hexadecimal digits. -/
def ofHex? (text : String) : Option Color := do
  let digits ← text.toList.mapM Text.hexValue?
  match digits with
  | [r, g, b] => some (.rgba (r * 17) (g * 17) (b * 17) 255)
  | [r, g, b, a] => some (.rgba (r * 17) (g * 17) (b * 17) (a * 17))
  | [r, r2, g, g2, b, b2] => some (.rgba (r * 16 + r2) (g * 16 + g2) (b * 16 + b2) 255)
  | [r, r2, g, g2, b, b2, a, a2] =>
    some (.rgba (r * 16 + r2) (g * 16 + g2) (b * 16 + b2) (a * 16 + a2))
  | _ => none

/-- A decimal in thousandths, rounded to the nearest, kept between zero and `most` thousandths. -/
def thousandths (d : Decimal) (most : Nat) : Nat :=
  if d.negative then 0
  else
    let power := d.exponent + 3
    let n :=
      if power ≥ 0 then d.mantissa * Number.tenTo power.toNat
      else (2 * d.mantissa + Number.tenTo (-power).toNat) / (2 * Number.tenTo (-power).toNat)
    min n most

/-- A channel from a number between 0 and 255 or a percentage. -/
def channel? : Piece → Option Nat
  | .token (.number value _ _) => some ((thousandths value 255000 + 500) / 1000)
  | .token (.percentage value _) => some ((thousandths value 100000 * 255 + 50000) / 100000)
  | _ => none

/-- The alpha channel from a number between 0 and 1 or a percentage. -/
def alpha? : Piece → Option Nat
  | .token (.number value _ _) => some ((thousandths value 1000 * 255 + 500) / 1000)
  | .token (.percentage value _) => some ((thousandths value 100000 * 255 + 50000) / 100000)
  | _ => none

/-- The color of three channels and perhaps an alpha channel. -/
def ofChannels? (r g b : Piece) (alpha : Option Piece) : Option Color := do
  let red ← channel? r
  let green ← channel? g
  let blue ← channel? b
  match alpha with
  | none => some (.rgba red green blue 255)
  | some piece => do
    let alpha ← alpha? piece
    some (.rgba red green blue alpha)

/-- The color of a color function. -/
def ofFunction? (name : String) (content : List Piece) : Option Color :=
  let name := String.ofList (name.toList.map Char.toLower)
  if name == "rgb" || name == "rgba" then
    match Piece.compact content with
    | [r, .token .comma, g, .token .comma, b] => ofChannels? r g b none
    | [r, .token .comma, g, .token .comma, b, .token .comma, a] => ofChannels? r g b (some a)
    | [r, g, b] => ofChannels? r g b none
    | [r, g, b, .token (.delim '/'), a] => ofChannels? r g b (some a)
    | _ => none
  else none

/-- The names shorter than the digits they stand for. -/
def shortNames : List (Nat × String) :=
  [(0x000080, "navy"), (0x008000, "green"), (0x008080, "teal"), (0x4b0082, "indigo"),
   (0x800000, "maroon"), (0x800080, "purple"), (0x808000, "olive"), (0x808080, "gray"),
   (0xa0522d, "sienna"), (0xa52a2a, "brown"), (0xc0c0c0, "silver"), (0xcd853f, "peru"),
   (0xd2b48c, "tan"), (0xda70d6, "orchid"), (0xdda0dd, "plum"), (0xee82ee, "violet"),
   (0xf0e68c, "khaki"), (0xf0ffff, "azure"), (0xf5deb3, "wheat"), (0xf5f5dc, "beige"),
   (0xfa8072, "salmon"), (0xfaf0e6, "linen"), (0xff0000, "red"), (0xff6347, "tomato"),
   (0xff7f50, "coral"), (0xffa500, "orange"), (0xffc0cb, "pink"), (0xffd700, "gold"),
   (0xffe4c4, "bisque"), (0xfffafa, "snow"), (0xfffff0, "ivory")]

/-- The hexadecimal digits of channels, one for each if that says the same as two. -/
def hexText (channels : List Nat) : String :=
  if channels.all fun n => n % 17 == 0 then
    String.ofList ('#' :: channels.map fun n => Text.hexDigit (n / 17))
  else
    String.ofList ('#' :: channels.flatMap fun n => [Text.hexDigit (n / 16), Text.hexDigit (n % 16)])

/-- The shortest written form. -/
def render : Color → String
  | .current => "currentColor"
  | .rgba r g b a =>
    if a == 255 then
      match shortNames.find? fun entry => entry.1 == r * 65536 + g * 256 + b with
      | some entry => entry.2
      | none => hexText [r, g, b]
    else hexText [r, g, b, a]

end Color

end StyleGraph.Css
