import DomQuery.Text.CharSet
import DomQuery.Tree.Basic

/-!
# Bidirectional classes

How characters take part in the order of a line. Some have a direction of their
own, and the first of them in a text gives the text its direction.
-/

namespace DomQuery.Text

open DomQuery.Tree

/-- The bidirectional classes of all code points as runs, from zero on. What is
not assigned has the class of the scripts that its place is kept for. -/
def bidiRuns : String :=
  "BN9S1B1S1WS1B1BN14B3S1WS1ON2ET3ON5ES1CS1ES1CS2EN10CS1ON6L26ON6L26ON4BN6B1BN26CS1ON1ET4ON4
   L1ON2BN1ON2ET2EN2ON1L1ON3EN1L1ON5L23ON1L31ON1L449ON2L7ON14L2ON14L5ON9L1ON17NSM112L4ON2L8
   ON1L5ON2L1ON1L110ON1L140NSM7L256ON1L2ON2ET1R1NSM45R1NSM1R1NSM2R1NSM2R1NSM1R56AN6ON2AL1ET2
   AL1CS1AL1ON2NSM11AL48NSM21AN10ET1AN2AL3NSM1AL101NSM7AN1ON1NSM6AL2NSM2ON1NSM4AL2EN10AL23
   NSM1AL30NSM27AL91NSM11AL15R43NSM9R2ON4R3NSM1R24NSM4R1NSM9R1NSM3R1NSM5R43NSM3R4AL48AN2AL5
   NSM9AL42NSM24AN1NSM32L55NSM1L1NSM1L4NSM8L4NSM1L3NSM7L10NSM2L29NSM1L58NSM1L4NSM4L8NSM1L20
   NSM2L14ET2L7ET1L2NSM1L2NSM2L57NSM1L4NSM2L4NSM2L2NSM3L3NSM1L30NSM2L3NSM1L11NSM2L57NSM1L4
   NSM5L1NSM2L4NSM1L20NSM2L13ET1L8NSM6L1NSM1L58NSM1L2NSM1L1NSM4L8NSM1L7NSM2L11NSM2L30NSM1L61
   NSM1L12NSM1L37ON6ET1ON1L5NSM1L3NSM1L55NSM1L1NSM3L5NSM3L1NSM4L7NSM2L11NSM2L20ON7L2NSM1L58
   NSM1L15NSM2L20NSM2L28NSM2L57NSM2L4NSM4L8NSM1L20NSM2L29NSM1L72NSM1L7NSM3L1NSM1L90NSM1L2NSM7
   L4ET1L7NSM8L98NSM1L2NSM9L11NSM7L73NSM2L27NSM1L1NSM1L1NSM1ON4L51NSM14L1NSM5L1NSM2L5NSM11L1
   NSM36L9NSM1L102NSM4L1NSM6L1NSM2L2NSM2L25NSM2L4NSM3L16NSM4L13NSM1L2NSM2L6NSM1L15NSM1L703
   NSM3L48ON10L102ON1L639WS1L26ON2L117NSM3L29NSM2L30NSM2L30NSM2L64NSM2L1NSM7L8NSM1L2NSM11L7
   ET1L1NSM1L18ON10L6ON11NSM3BN1NSM1L117NSM2L34NSM1L118NSM3L4NSM2L9NSM1L6NSM3L4ON1L3ON2L152
   ON34L23NSM2L2NSM1L58NSM1L1NSM7L1NSM1L1NSM1L2NSM8L6NSM10L2NSM1L48NSM31L49NSM4L48NSM1L1NSM5
   L1NSM1L5NSM1L40NSM9L12NSM2L32NSM4L2NSM2L1NSM3L56NSM1L1NSM2L3NSM1L1NSM3L58NSM8L2NSM2L152
   NSM3L1NSM13L1NSM7L4NSM1L6NSM1L3NSM2L198NSM64L445ON1L1ON3L11ON3L13ON3L13ON3L13ON2L1WS11BN3
   L1R1ON24WS1B1LRE1RLE1PDF1LRO1RLO1CS1ET5ON15CS1ON26WS1BN5L1LRI1RLI1FSI1PDI1BN6EN1L3EN6ES2
   ON3L1EN10ES2ON3L17ET48NSM33L15ON2L1ON4L1ON2L10ON1L1ON3L5ON6L1ON1L1ON1L1ON1L4ET1L11ON2L4ON5
   L5ON4L2ON16L41ON3L4ON130ES1ET1ON290L69ON26L1ON148L22ON11L21ON40EN20L78ON450L1ON339L256
   ON628L2ON32L1ON105L229ON6L4NSM3L7ON7L127NSM1L96NSM32ON94L34ON26L1ON89L12ON214L26ON16WS1ON4
   L3ON25L9NSM4L2ON1L5ON2L5ON3L89NSM2ON2L3ON1L90ON1L196ON38L9ON1L45ON2L49ON16L28ON3L50ON15L12
   ON4L167ON4L99ON2L31ON1L6592ON64L22160ON55L326ON3L95NSM4ON1NSM10ON2L30NSM2L80NSM2L14ON34
   L102ON1L121NSM1L3NSM1L4NSM1L25NSM2L1ON4NSM1L11ET2L58ON4L76NSM2L26NSM18L13NSM1L38NSM8L25
   NSM11L46NSM3L48NSM1L2NSM4L2NSM2L39NSM1L67NSM6L2NSM2L2NSM2L12NSM1L8NSM1L47NSM1L51NSM1L1NSM3
   L2NSM2L5NSM2L1NSM1L42NSM2L8NSM1L115ON2L121NSM1L2NSM1L4NSM1L20271R1NSM1R10ES1R38AL494ON18
   AL127ON1L32AL13ON3NSM16ON10L6NSM16ON32CS1ON1CS1L1ON1CS1ON9ET1ON2ES2ON3L1ON1ET2ON1L4AL143
   BN1L1ON2ET3ON5ES1CS1ES1CS2EN10CS1ON6L26ON6L26ON11L122ET2ON3ET2L1ON7L10ON5L259ON1L62ON77L3
   ON13L3ON1L92NSM1L226NSM1EN27L122NSM5L1157R287ON1R225NSM3R1NSM2R5NSM4R40NSM3R4NSM1R165NSM2
   R82ON7R448AL36NSM4R8AN10R6AN10R31NSM5ON1R241AN31R44NSM2R21AL3R55NSM4R48AL22NSM11AL9R40NSM4
   R122L1NSM1L54NSM15L11ON20L10NSM1L2NSM2L10NSM3L49NSM4L2NSM2L7NSM1L61NSM3L36NSM5L1NSM8L62
   NSM1L12NSM2L52NSM9L10NSM4L2NSM1L95NSM3L2NSM1L1NSM2L6NSM1L2NSM1L157NSM1L3NSM8L21NSM2L57NSM2
   L3NSM1L37NSM7L3NSM5L70NSM6L13NSM1L1NSM1L1NSM1L14NSM2L85NSM8L2NSM3L1NSM1L23NSM1L84NSM6L1
   NSM1L4NSM2L1NSM2L238NSM4L6NSM2L1NSM2L27NSM2L85NSM8L2NSM1L1NSM2L31ON13L62NSM1L1NSM1L2NSM6L1
   NSM1L101NSM1L1NSM1L2NSM4L1NSM5L259NSM9L1NSM2L256NSM2L1NSM1L4NSM1L144NSM4L2NSM2L4NSM1L32
   NSM6L2NSM2L40NSM6L2NSM4L8NSM1L9NSM6L2NSM3L46NSM13L1NSM2L406NSM7L1NSM6L84NSM22L2NSM7L1NSM2
   L1NSM2L122NSM6L3NSM1L1NSM2L1NSM7L1NSM1L72NSM2L3NSM1L1NSM1L347NSM2L11NSM2L52NSM5L5NSM1L1
   NSM1L23NSM1L122ON8ET4ON17L5198NSM1L6NSM15L11464NSM12L3NSM3L2496NSM5L59NSM7L1048NSM1L63NSM4
   L79ON1L1NSM1L19640NSM2L1BN4L3932ON240EN10L6ON436L76NSM46L2NSM23L544NSM3L9BN8NSM8L2NSM7L30
   NSM4L59ON2L21ON66NSM3ON1L186ON87L874ON1L25ON1L31ON1L25ON1L31ON1L25ON1L31ON1L25ON1L31ON1L25
   ON1L10EN50L512NSM55L4NSM50L8NSM1L14NSM1L22NSM5L1NSM15L1360NSM7L1NSM17L2NSM7L1NSM2L1NSM5
   L100NSM1L160NSM7L375NSM1L61NSM4L15ET1L492NSM4L254NSM2L528R208NSM7R109NSM7R806AL68R76AL61
   R194AL240ON2AL14R256ON44L4ON100L12ON15L2ON15L1ON15L1ON37L10EN11ON5L31ON1L58ON6L61ON1L178
   ON6L154ON984L4ON17L3ON13L3ON119L4ON95L6ON12L4ON1L15ON12L4ON56L8ON10L6ON40L8ON30L2ON12L4ON2
   L62ON340L12ON14L2ON13L3ON10L5ON56L7ON15L2ON11L6ON9L7ON147L1ON92EN10L787463BN1L30BN96L128
   NSM240L196112"

/-- The characters of the given bidirectional classes. -/
def CharSet.ofBidi (classes : List String) : CharSet :=
  .ofRuns bidiRuns fun label => classes.contains label

def leftToRightChars : CharSet :=
  .ofBidi ["L"]

/-- Arabic letters are among them. -/
def rightToLeftChars : CharSet :=
  .ofBidi ["R", "AL"]

/-- The direction a character has by itself. -/
def strongDirection? (c : Char) : Option Direction :=
  if leftToRightChars.contains c then some .leftToRight
  else if rightToLeftChars.contains c then some .rightToLeft
  else none

/-- The direction of the first strong character of `text`. -/
def textDirection? (text : String) : Option Direction :=
  text.toList.findSome? strongDirection?

end DomQuery.Text
