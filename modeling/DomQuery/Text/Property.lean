import DomQuery.Text.Category

/-!
# Binary properties

Characters that have a property. Some properties are kept as runs from zero on:
`y` for the characters that have it, `n` for those that have not; what follows
the last run has it not. The others are made of general categories and of those.
-/

namespace DomQuery.Text

def asciiHexDigitRuns : String :=
  "n48y10n7y6n26y6"

def bidiControlRuns : String :=
  "n1564y1n6641y2n26y5n55y4"

def bidiMirroredRuns : String :=
  "n40y2n18y1n1y1n28y1n1y1n29y1n1y1n45y1n15y1n3710y4n1885y2n2460y2n10y2n54y2n14y2n177y1n192y4
   n3y6n3y1n3y2n3y4n1y4n1y1n1y1n4y9n5y1n1y18n5y4n9y2n1y1n1y8n1y32n2y4n5y1n9y2n2y19n5y2n9y5n2
   y2n4y24n2y16n8y4n20y2n7y2n1085y14n74y1n2y4n1y2n1y3n5y4n5y3n3y14n403y22n2y6n1y14n8y1n7y6n3
   y1n4y5n1y2n2y5n4y1n1y3n2y2n10y6n2y2n12y19n1y4n2y1n1y1n2y1n1y4n5y2n6y3n24y2n11y2n4y4n1y2n2
   y2n4y43n2y8n1y40n5y1n1y1n3y5n5y3n4y1n3y5n1y1n256y1n515y4n3y2n1y2n14y2n2y10n43y8n427y10n2y8
   n52797y6n5y2n162y2n18y1n1y1n28y1n1y1n29y1n1y1n1y2n1y2n55159y1n57y1n57y1n57y1n57y1"

def dashRuns : String :=
  "n45y1n1372y1n51y1n3649y1n1029y1n2057y6n61y1n39y1n15y1n390y1n3076y1n2y1n31y2n4y1n28y1n446y1
   n19y1n111y1n52624y2n37y1n10y1n169y1n3680y1n318y1"

def deprecatedRuns : String :=
  "n329y1n1321y1n2307y1n1y1n2089y2n2245y6n697y2n908502y1"

def diacriticRuns : String :=
  "n94y1n1y1n71y1n6y1n4y1n2y2n503y159n1y8n5y6n17y2n4y1n9y2n253y5n209y1n55y17n1y27n1y1n1y2n1y1
   n134y8n4y2n134y2n4y2n3y3n67y27n91y11n58y11n34y2n126y8n41y10n16y28n61y1n16y1n3y4n28y1n74y1
   n16y1n110y1n16y1n110y1n16y1n47y3n60y1n16y1n7y1n119y1n110y1n16y1n110y1n16y1n109y2n16y1n124
   y1n111y1n12y6n1y1n107y1n13y5n75y2n27y1n1y1n1y1n4y2n66y3n1y2n62y1n112y1n1y2n40y2n4y5n25y7n1
   y1n10y2n705y3n948y2n30y1n148y11n9y1n347y3n292y1n20y8n2y1n48y15n2y11n104y1n15y1n38y9n54y2
   n58y1n11y2n66y2n64y6n82y25n4y1n6y1n2y3n50y63n89y12n37y11n445y1n1y3n11y3n13y3n13y3n13y2
   n3312y3n317y1n506y6n105y4n95y1n30066y1n12y2n1y1n28y2n82y2n14y34n102y3n109y2n12y1n37y1n151
   y1n27y18n57y4n36y1n95y1n12y1n36y1n149y3n65y4n51y1n100y5n9y3n128y2n20272y1n769y16n270y1n1y1
   n47y1n45y2n67y1n764y1n1183y6n1y42n1y9n637y3n4y1n165y2n571y6n38y1n26y5n399y3n70y11n49y4n192
   y1n41y1n72y2n120y2n62y1n76y1n9y3n104y2n178y2n80y2n16y1n24y7n3y5n89y3n1y2n13y2n95y1n3y1n123
   y2n251y2n126y1n118y2n115y1n269y2n258y2n4y1n156y1n83y1n18y1n81y1n421y1n258y1n1y2n81y1n425y2
   n23y1n5356y15n11481y1n2496y5n59y7n564y2n546y17n80y2n16382y4n1y7n1y2n7937y46n2y23n544y3n3y6
   n8y8n2y7n30y4n3714y62n194y7n375y1n61y4n766y2n736y7n109y3n1y3"

def emojiRuns : String :=
  "n35y1n6y1n5y10n111y1n4y1n8077y1n12y1n216y1n22y1n90y6n15y2n367y2n12y1n166y1n25y11n4y3n199y1
   n231y2n10y1n9y1n58y4n1y5n9y1n2y1n2y2n2y1n4y1n2y1n1y2n2y1n3y1n3y2n8y3n5y1n1y1n5y12n11y2n2y1
   n1y2n1y1n18y1n2y2n18y6n1y1n1y2n3y2n5y1n2y2n4y2n11y2n5y2n2y1n5y2n1y1n1y2n20y2n5y6n1y4n2y1n4
   y1n2y1n2y6n1y1n2y1n1y1n1y1n6y1n3y1n6y1n10y2n15y1n2y1n4y1n1y1n4y3n1y1n11y2n48y3n9y1n14y1n14
   y1n372y2n463y3n19y2n51y1n4y1n1242y1n12y1n601y1n1y1n114026y1n202y1n160y2n12y2n14y1n2y10n75
   y26n1y2n23y1n20y1n2y9n21y2n174y34n2y112n2y2n1y3n2y83n2y3n1y263n1y63n11y6n1y24n7y2n2y8n12y1
   n2y4n2y1n4y2n13y2n2y1n8y2n9y1n5y3n12y3n8y3n2y1n1y1n4y1n6y1n3y1n6y86n48y70n5y8n2y3n4y10n3y1
   n1y2n3y1n2y10n227y12n4y1n283y47n1y10n1y185n112y13n3y10n5y56n7y15n2y11n6y9"

def emojiComponentRuns : String :=
  "n35y1n6y1n5y10n8147y1n213y1n56619y1n62422y26n507y5n1456y4n788076y96"

def emojiModifierRuns : String :=
  "n127995y5"

def emojiModifierBaseRuns : String :=
  "n9757y1n219y1n16y4n117879y1n60y3n2y1n2y3n117y2n2y11n21y19n3y1n4y3n1y3n7y1n1y1n24y1n201y2n4
   y1n21y1n4y2n174y3n3y5n83y1n16y3n9y1n11y1n575y1n2y1n8y8n6y1n9y10n2y3n56y1n61y2n1y2n1y1n17y3
   n1y13n229y3n42y9"

def emojiPresentationRuns : String :=
  "n8986y2n205y4n3y1n2y1n521y2n21y2n50y12n43y1n19y1n13y1n8y2n17y2n5y2n8y1n5y1n21y1n7y2n1y1n4
   y1n2y1n7y1n4y2n28y1n35y1n1y1n4y3n1y1n61y3n24y1n14y1n859y2n51y1n4y1n115886y1n202y1n190y1n2
   y10n75y26n1y1n24y1n20y1n2y5n1y3n21y2n174y33n12y9n1y70n1y22n12y43n4y5n12y17n3y1n3y71n1y1n1
   y187n2y63n13y4n1y24n18y1n26y2n13y1n86y85n48y70n6y1n3y3n2y3n4y4n11y2n7y9n227y12n4y1n283y47
   n1y10n1y185n112y13n3y10n5y56n7y15n2y11n6y9"

def extendedPictographicRuns : String :=
  "n169y1n4y1n8077y1n12y1n216y1n22y1n90y6n15y2n367y2n12y1n95y1n70y1n25y11n4y3n199y1n231y2n10
   y1n9y1n58y4n1y6n1y12n1y114n10y118n2y11n1y1n1y1n6y1n3y1n6y1n10y2n15y1n2y1n4y1n1y1n4y3n1y1
   n11y5n45y3n9y1n14y1n14y1n372y2n463y3n19y2n51y1n4y1n1242y1n12y1n601y1n1y1n114022y256n13y3
   n31y1n60y6n12y2n14y1n2y10n18y57n27y15n10y1n20y1n2y9n1y4n9y434n5y318n8y266n48y128n116y12n85
   y43n12y4n56y8n10y6n40y8n30y82n12y47n1y10n1y441n256y1022"

def extenderRuns : String :=
  "n183y1n536y2n878y1n441y1n630y1n137y1n89y1n752y1n127y1n2371y1n56y1n611y1n398y1n68y1n5001y1
   n43y5n103y2n93y3n28438y1n1526y1n962y1n22y1n137y1n108y1n21y2n21627y1n2064y2n1483y1n27y1n4y1
   n1223y1n293y1n116y2n498y3n1231y1n20649y2n1180y2n1y1n29016y2n1201y1n852y3"

def graphemeLinkRuns : String :=
  "n2381y1n127y1n127y1n127y1n127y1n127y1n127y1n127y1n109y2n16y1n124y1n111y1n127y1n201y1n180y2
   n1753y2n30y1n157y1n653y1n227y1n101y2n70y2n4491y1n31366y1n37y1n151y1n142y1n108y1n309y1n246
   y1n24145y1n1542y1n41y1n14y1n57y1n121y2n139y1n116y1n180y1n98y1n128y3n113y1n127y1n252y1n127
   y1n118y1n116y1n269y1n259y2n161y1n83y1n18y1n81y1n421y1n260y2n81y1n425y2n16876y1"

def hexDigitRuns : String :=
  "n48y10n7y6n26y6n65193y10n7y6n26y6"

def hyphenRuns : String :=
  "n45y1n127y1n1244y1n4731y1n2057y2n3589y1n739y1n52583y1n169y1n87y1"

def idsBinaryOperatorRuns : String :=
  "n12272y2n2y10n497y1"

def idsTrinaryOperatorRuns : String :=
  "n12274y2"

def idsUnaryOperatorRuns : String :=
  "n12286y2"

def idCompatMathContinueRuns : String :=
  "n178y2n5y1n8118y1n3y11n1y15n371y1n4y1n22y1n111778y1n25y1n31y1n25y1n31y1n25y1n31y1n25y1n31
   y1n25y1"

def idCompatMathStartRuns : String :=
  "n8706y1n4y1n22y1n111778y1n25y1n31y1n25y1n31y1n25y1n31y1n25y1n31y1n25y1"

def ideographicRuns : String :=
  "n12294y2n25y9n14y3n965y6592n64y20992n22784y366n2y106n29962y1n27y6136n8y1238n41y10n9319y396
   n19716y42720n32y4154n6y222n2y5762n14y7473n15y622n2466y542n1506y4939n5y4192"

def joinControlRuns : String :=
  "n8204y2"

def logicalOrderExceptionRuns : String :=
  "n3648y5n123y5n2800y3n2y1n37114y2n2y1n1y2"

def modifierCombiningMarkRuns : String :=
  "n1620y2n2y1n131y1n6y1n3y2n481y2n1y3n3y1n31y1"

def noncharacterCodePointRuns : String :=
  "n64976y32n526y2n65534y2n65534y2n65534y2n65534y2n65534y2n65534y2n65534y2n65534y2n65534y2
   n65534y2n65534y2n65534y2n65534y2n65534y2n65534y2n65534y2"

def otherAlphabeticRuns : String :=
  "n837y1n29y13n576y14n1y1n1y2n1y2n1y1n72y11n48y13n1y7n16y1n101y7n4y4n2y2n4y1n35y1n30y16n102
   y11n101y2n3y9n1y3n1y4n106y1n60y12n3y7n6y20n54y2n2y15n1y2n5y3n10y2n29y3n58y7n2y2n2y2n10y1
   n10y2n29y3n58y5n4y2n2y2n4y1n30y2n3y1n11y3n58y8n1y3n1y2n21y2n22y3n4y3n58y7n2y2n2y2n9y2n10y2
   n30y1n59y5n3y3n1y3n10y1n40y5n57y7n1y3n1y3n8y2n11y2n29y3n58y7n1y3n1y3n8y2n11y2n15y1n12y4n58
   y7n1y3n1y3n10y1n10y2n29y3n75y6n1y1n1y8n18y2n61y1n2y7n18y1n99y1n2y6n1y2n16y1n163y19n9y11n1
   y36n110y12n1y1n2y4n23y4n4y3n1y3n2y7n3y4n13y12n1y1n10y4n1652y2n30y2n30y2n30y2n66y19n188y2
   n34y1n118y12n4y9n222y5n57y10n2y20n74y2n11y3n49y5n48y15n60y3n30y9n2y2n57y11n50y19n412y34
   n1729y52n2294y32n30836y8n34y2n354y1n8y1n23y5n88y2n50y16n1y1n57y1n38y5n28y12n45y4n48y12n37
   y1n67y14n12y1n8y2n45y3n50y1n1y3n2y2n5y1n44y5n5y1n237y8n20275y1n2135y5n1670y3n1y2n5y4n788y4
   n65y1n321y2n79y1n259y3n53y14n45y2n11y3n45y9n9y1n61y3n36y12n18y2n57y3n48y13n14y2n92y9n2y1n6
   y1n2y1n157y10n23y4n58y7n2y2n2y2n10y1n10y2n84y9n1y1n2y1n1y4n1y2n103y13n1y3n106y18n237y7n2y7
   n29y2n82y15n1y1n106y11n103y14n257y13n247y6n1y2n2y2n3y1n1y1n142y7n2y6n4y1n28y10n42y5n1y4n18
   y11n46y14n407y8n1y7n83y22n1y14n122y6n3y1n1y2n1y3n1y1n3y1n66y5n1y2n1y4n348y4n9y2n1y1n48y7n3
   y3n16861y17n3616y1n1y55n7y4n93y2n19628y1n9057y7n1y17n2y7n1y2n1y5n100y1n2231y1n2024y26n6y26
   n6y26"

def otherDefaultIgnorableCodePointRuns : String :=
  "n847y1n3599y2n1619y2n2223y1n4350y1n52795y1n79y9n851975y1n1y30n96y128n240y3600"

def otherGraphemeExtendRuns : String :=
  "n2494y1n24y1n358y1n24y1n102y1n24y1n232y1n1y1n4y2n1y2n9y2n103y1n24y1n119y1n15y1n2357y1n30y1
   n1024y1n5y1n1y1n5y2n101y1n71y2n1048y1n4129y2n31011y1n108y1n21981y2n4640y1n116y1n264y1n14y1
   n9y1n96y1n9y1n2y1n1y3n5y1n224y1n12y1n241y1n262y1n633y1n12y1n1539y1n20654y2n24947y2n6y6
   n798381y96"

def otherIdContinueRuns : String :=
  "n183y1n719y1n4065y9n1640y1n1585y2n4333y1n52841y1"

def otherIdStartRuns : String :=
  "n6277y2n2193y1n21y1n3948y2"

def otherLowercaseRuns : String :=
  "n170y1n15y1n501y9n7y2n30y5n96y1n52y1n3457y1n3119y63n13y1n34y37n689y1n13y1n16y13n211y16n848
   y26n1938y2n31262y2n210y1n129y3n3y2n866y4n9y1n23574y1n2y3n1y42n1y9n55413y62"

def otherMathRuns : String :=
  "n94y1n881y3n2y1n26y2n2y2n7200y1n27y3n11y1n32y4n24y2n14y2n65y13n4y1n3y2n4y5n18y1n4y1n2y10n1
   y1n3y5n6y1n3y2n2y2n1y3n1y6n3y4n5y5n75y5n2y4n1y2n1y2n1y1n1y5n2y2n4y2n4y18n2y2n1y1n1y7n1y1n6
   y2n290y4n168y2n1y1n24y1n17y1n445y2n12y9n5y5n5y2n2y2n3y5n14y1n1y1n2y6n24y2n57y1n1y1n29y4n9
   y2n342y2n31y10n403y22n63y4n32y2n54371y1n1y1n4y1n211y1n1y1n54465y85n1y71n1y2n2y1n2y2n2y4n1
   y12n1y1n1y7n1y65n1y4n2y8n1y7n1y28n1y4n1y5n1y1n3y7n1y340n2y25n1y25n1y31n1y25n1y31n1y25n1y31
   n1y25n1y31n1y25n1y8n2y50n5632y4n1y27n1y2n1y1n2y1n1y10n1y4n1y1n1y1n6y1n4y1n1y1n1y1n1y3n1y2
   n1y1n2y1n1y1n1y1n1y1n1y1n1y2n1y1n2y4n1y7n1y4n1y4n1y1n1y10n1y17n5y3n1y5n1y17"

def otherUppercaseRuns : String :=
  "n8544y16n838y26n117856y26n6y26n6y26"

def patternSyntaxRuns : String :=
  "n33y15n10y7n26y4n1y1n26y4n34y7n1y1n1y2n1y1n1y2n4y1n4y1n3y1n23y1n31y1n7960y24n8y15n2y19n1
   y10n305y720n160y630n30y1132n512y128n385y3n4y25n15y1n52493y2n261y2"

def patternWhiteSpaceRuns : String :=
  "n9y5n18y1n100y1n8072y2n24y2"

def prependedConcatenationMarkRuns : String :=
  "n1536y6n215y1n49y1n384y2n80y1n67546y1n15y1"

def quotationMarkRuns : String :=
  "n34y1n4y1n131y1n15y1n8028y8n25y2n3591y1n457y4n13y3n52769y4n189y1n4y1n90y2"

def radicalRuns : String :=
  "n11904y26n1y89n12y214"

def regionalIndicatorRuns : String :=
  "n127462y26"

def sentenceTerminalRuns : String :=
  "n33y1n12y1n16y1n1353y1n147y3n180y1n43y3n246y1n61y1n1y1n3y2n293y2n1764y2n790y1n4y2n773y1
   n198y2n157y2n45y1n5y1n314y2n354y4n162y2n10y2n2y2n29y3n187y2n65y2n932y1n23y2n9y3n3247y3n306
   y1n13y1n22y2n429y1n29948y1n270y2n227y1n3y1n382y2n86y2n95y1n152y2n147y3n144y2n249y1n21030y1
   n2y2n59y1n3y2n169y1n12y1n16y1n65y1n2804y2n1277y5n44y4n189y2n117y4n127y3n129y2n6y1n16y2n88
   y2n1y2n108y1n298y2n117y2n373y2n5y15n105y2n249y3n517y1n1y1n251y2n87y2n420y2n692y2n74y2
   n19241y2n133y1n65y2n11y1n553y2n296y1n19974y1n7656y1"

def softDottedRuns : String :=
  "n105y2n196y1n281y1n30y1n52y1n20y1n320y1n98y1n1y1n6409y1n51y1n13y1n3y1n132y1n157y1n421y1
   n214y2n2866y1n108453y2n50y2n50y2n50y2n50y2n50y2n50y2n50y2n50y2n50y2n50y2n50y2n50y2n2182y1
   n305y2n26y1"

def terminalPunctuationRuns : String :=
  "n33y1n10y1n1y1n11y2n3y1n830y1n8y1n513y1n57y1n72y1n14y1n1y3n180y1n43y11n1y1n235y2n54y6n1y8
   n31y1n261y2n1268y2n172y1n4y6n311y2n789y8n773y1n124y3n71y2n157y3n3y1n39y4n2y2n314y2n354y4
   n162y2n10y2n1y3n29y3n187y5n62y2n932y1n23y2n9y3n3247y3n306y1n13y1n4y1n10y1n1y2n3y2n428y2
   n29947y2n269y3n227y5n382y2n86y2n95y1n151y3n147y3n127y1n16y2n249y1n21030y1n2y2n57y3n1y4n169
   y1n10y1n1y1n11y2n3y1n65y1n2y1n1082y1n48y1n1158y1n199y1n310y2n152y6n68y6n89y4n952y5n44y4
   n189y7n112y4n127y3n129y2n6y1n16y2n88y5n108y1n298y2n117y3n12y2n358y4n3y15n105y2n249y3n517y1
   n1y1n251y2n87y2n4y2n414y3n45y1n645y2n74y2n1323y5n17913y2n133y1n65y3n10y1n553y2n295y2n19974
   y1n7655y4"

def unifiedIdeographRuns : String :=
  "n13312y6592n64y20992n23054y2n1y1n1y2n10y1n1y1n1y2n2y3n67030y42720n32y4154n6y222n2y5762n14
   y7473n15y622n4514y4939n5y4192"

def variationSelectorRuns : String :=
  "n6155y3n1y1n58864y16n852720y240"

def whiteSpaceRuns : String :=
  "n9y5n18y1n100y1n26y1n5599y1n2431y11n29y2n5y1n47y1n4000y1"

/-- What changes when a character is mapped to a case: `L` if it is no lower
case, `U` if no upper case, `T` if no title case, `F` if folding changes it, and
`N` for none of these. -/
def caseChangeRuns : String :=
  "N65LF26N6UT26N58UTF1N10LF23N1LF7UTF1UT23N1UT8LF1UT1LF1UT1LF1UT1LF1UT1LF1UT1LF1UT1LF1UT1LF1
   UT1LF1UT1LF1UT1LF1UT1LF1UT1LF1UT1LF1UT1LF1UT1LF1UT1LF1UT1LF1UT1LF1UT1LF1UT1LF1UT1LF1UT1LF1
   UT1LF1UT1LF1UT1LF1UT1LF1UT1LF1UT1N1LF1UT1LF1UT1LF1UT1LF1UT1LF1UT1LF1UT1LF1UT1LF1UT1UTF1LF1
   UT1LF1UT1LF1UT1LF1UT1LF1UT1LF1UT1LF1UT1LF1UT1LF1UT1LF1UT1LF1UT1LF1UT1LF1UT1LF1UT1LF1UT1LF1
   UT1LF1UT1LF1UT1LF1UT1LF1UT1LF1UT1LF1UT1LF1UT1LF2UT1LF1UT1LF1UT1UTF1UT1LF2UT1LF1UT1LF2UT1
   LF3UT1N1LF4UT1LF2UT1LF3UT3LF2UT1LF2UT1LF1UT1LF1UT1LF2UT1LF1N2LF1UT1LF2UT1LF3UT1LF1UT1LF2
   UT1N2LF1UT1N1UT1N4LTF1LUF1UT1LTF1LUF1UT1LTF1LUF1UT1LF1UT1LF1UT1LF1UT1LF1UT1LF1UT1LF1UT1LF1
   UT1LF1UT2LF1UT1LF1UT1LF1UT1LF1UT1LF1UT1LF1UT1LF1UT1LF1UT1LF1UT2LTF1LUF1UT1LF1UT1LF3UT1LF1
   UT1LF1UT1LF1UT1LF1UT1LF1UT1LF1UT1LF1UT1LF1UT1LF1UT1LF1UT1LF1UT1LF1UT1LF1UT1LF1UT1LF1UT1LF1
   UT1LF1UT1LF1UT1LF1UT1LF1N1LF1UT1LF1UT1LF1UT1LF1UT1LF1UT1LF1UT1LF1UT1LF1UT1LF1UT1N6LF2UT1
   LF2UT2LF1UT1LF4UT1LF1UT1LF1UT1LF1UT1LF1UT6N1UT2N1UT1N1UT2N3UT2N1UT4N1UT5N2UT1N1UT2N2UT1N7
   UT1N2UT1N1UT2N3UT6N5UT1N10UT2N166UTF1N42LF1UT1LF1UT1N2LF1UT1N3UT3N1LF1N6LF1N1LF3N1LF1N1LF2
   UT1LF17N1LF9UT22UTF1UT12LF1UTF2N3UTF2UT1LF1UT1LF1UT1LF1UT1LF1UT1LF1UT1LF1UT1LF1UT1LF1UT1
   LF1UT1LF1UT1LF1UT1LF1UT1UTF2UT2LF1UTF1N1LF1UT1LF2UT1N1LF51UT48LF1UT1LF1UT1LF1UT1LF1UT1LF1
   UT1LF1UT1LF1UT1LF1UT1LF1UT1LF1UT1LF1UT1LF1UT1LF1UT1LF1UT1LF1UT1LF1UT1LF1UT1N8LF1UT1LF1UT1
   LF1UT1LF1UT1LF1UT1LF1UT1LF1UT1LF1UT1LF1UT1LF1UT1LF1UT1LF1UT1LF1UT1LF1UT1LF1UT1LF1UT1LF1UT1
   LF1UT1LF1UT1LF1UT1LF1UT1LF1UT1LF1UT1LF1UT1LF1UT1LF1UT1LF1UT1LF2UT1LF1UT1LF1UT1LF1UT1LF1UT1
   LF1UT1LF1UT2LF1UT1LF1UT1LF1UT1LF1UT1LF1UT1LF1UT1LF1UT1LF1UT1LF1UT1LF1UT1LF1UT1LF1UT1LF1UT1
   LF1UT1LF1UT1LF1UT1LF1UT1LF1UT1LF1UT1LF1UT1LF1UT1LF1UT1LF1UT1LF1UT1LF1UT1LF1UT1LF1UT1LF1UT1
   LF1UT1LF1UT1LF1UT1LF1UT1LF1UT1LF1UT1LF1UT1LF1UT1LF1UT1LF1UT1LF1UT1LF1UT1LF1UT1LF1UT1LF1UT1
   LF1UT1LF1UT1LF1UT1LF1UT1LF1UT1N1LF38N10UT38UTF1N2840LF38N1LF1N5LF1N2U43N2U3N672L86N2UTF6
   N2178UTF9LF1UT1N5LF43N2LF3N185UT1N3UT1N16UT1N113LF1UT1LF1UT1LF1UT1LF1UT1LF1UT1LF1UT1LF1UT1
   LF1UT1LF1UT1LF1UT1LF1UT1LF1UT1LF1UT1LF1UT1LF1UT1LF1UT1LF1UT1LF1UT1LF1UT1LF1UT1LF1UT1LF1UT1
   LF1UT1LF1UT1LF1UT1LF1UT1LF1UT1LF1UT1LF1UT1LF1UT1LF1UT1LF1UT1LF1UT1LF1UT1LF1UT1LF1UT1LF1UT1
   LF1UT1LF1UT1LF1UT1LF1UT1LF1UT1LF1UT1LF1UT1LF1UT1LF1UT1LF1UT1LF1UT1LF1UT1LF1UT1LF1UT1LF1UT1
   LF1UT1LF1UT1LF1UT1LF1UT1LF1UT1LF1UT1LF1UT1LF1UT1LF1UT1LF1UT1LF1UT1LF1UT1LF1UT1LF1UT1LF1UT1
   LF1UT1LF1UT1LF1UT1LF1UT1LF1UT1LF1UT1LF1UT1LF1UT5UTF2N2LF1N1LF1UT1LF1UT1LF1UT1LF1UT1LF1UT1
   LF1UT1LF1UT1LF1UT1LF1UT1LF1UT1LF1UT1LF1UT1LF1UT1LF1UT1LF1UT1LF1UT1LF1UT1LF1UT1LF1UT1LF1UT1
   LF1UT1LF1UT1LF1UT1LF1UT1LF1UT1LF1UT1LF1UT1LF1UT1LF1UT1LF1UT1LF1UT1LF1UT1LF1UT1LF1UT1LF1UT1
   LF1UT1LF1UT1LF1UT1LF1UT1LF1UT1LF1UT1LF1UT1LF1UT1LF1UT1LF1UT1LF1UT1LF1UT1LF1UT9LF8UT6N2LF6
   N2UT8LF8UT8LF8UT6N2LF6N2UT8N1LF1N1LF1N1LF1N1LF1UT8LF8UT14N2UTF8LUF8UTF8LUF8UTF8LUF8UT2UTF3
   N1UT1UTF1LF4LUF1N1UT1N3UTF3N1UT1UTF1LF4LUF1N3UT4N2UT2LF4N4UT8LF5N5UTF3N1UT1UTF1LF4LUF1N297
   LF1N3LF2N6LF1N27UT1N17LF16UT16N3LF1UT1N817LF26UT26N1814LF48UT48LF1UT1LF3UT2LF1UT1LF1UT1LF1
   UT1LF4N1LF1UT1N1LF1UT1N7LF3UT1LF1UT1LF1UT1LF1UT1LF1UT1LF1UT1LF1UT1LF1UT1LF1UT1LF1UT1LF1UT1
   LF1UT1LF1UT1LF1UT1LF1UT1LF1UT1LF1UT1LF1UT1LF1UT1LF1UT1LF1UT1LF1UT1LF1UT1LF1UT1LF1UT1LF1UT1
   LF1UT1LF1UT1LF1UT1LF1UT1LF1UT1LF1UT1LF1UT1LF1UT1LF1UT1LF1UT1LF1UT1LF1UT1LF1UT1LF1UT1LF1UT1
   LF1UT1LF1UT1LF1UT1LF1UT1LF1UT1LF1UT1LF1UT1LF1UT1LF1UT1N7LF1UT1LF1UT1N3LF1UT1N12UT38N1UT1N5
   UT1N30994LF1UT1LF1UT1LF1UT1LF1UT1LF1UT1LF1UT1LF1UT1LF1UT1LF1UT1LF1UT1LF1UT1LF1UT1LF1UT1LF1
   UT1LF1UT1LF1UT1LF1UT1LF1UT1LF1UT1LF1UT1LF1UT1LF1UT1LF1UT1N18LF1UT1LF1UT1LF1UT1LF1UT1LF1UT1
   LF1UT1LF1UT1LF1UT1LF1UT1LF1UT1LF1UT1LF1UT1LF1UT1LF1UT1N134LF1UT1LF1UT1LF1UT1LF1UT1LF1UT1
   LF1UT1LF1UT1N2LF1UT1LF1UT1LF1UT1LF1UT1LF1UT1LF1UT1LF1UT1LF1UT1LF1UT1LF1UT1LF1UT1LF1UT1LF1
   UT1LF1UT1LF1UT1LF1UT1LF1UT1LF1UT1LF1UT1LF1UT1LF1UT1LF1UT1LF1UT1LF1UT1LF1UT1LF1UT1LF1UT1LF1
   UT1LF1UT1LF1UT1LF1UT1N9LF1UT1LF1UT1LF2UT1LF1UT1LF1UT1LF1UT1LF1UT1N3LF1UT1LF1N2LF1UT1LF1UT2
   N1LF1UT1LF1UT1LF1UT1LF1UT1LF1UT1LF1UT1LF1UT1LF1UT1LF1UT1LF1UT1LF5N1LF5UT1LF1UT1LF1UT1LF1
   UT1LF1UT1LF1UT1LF1UT1LF1UT1LF4UT1LF1UT1LF2UT1N2LF1UT1N4LF1UT1LF1UT1LF1UT1LF1N24LF1UT1N860
   UT1N28UTF80N20288UTF7N12UTF5N1033LF26N6UT26N1189LF40UT40N96LF36N4UT36N116LF11N1LF15N1LF7N1
   LF2N1UT11N1UT15N1UT7N1UT2N1731LF51N13UT51N93LF22N10UT22N2842LF32UT32N21856LF32UT32N31360
   LF34UT34"

/-- Names of properties and their runs. Names are in lower case, without
blanks, hyphens and underscores. -/
def propertyNames : List (List String × String) := [
  (["ahex", "asciihexdigit"], asciiHexDigitRuns),
  (["bidic", "bidicontrol"], bidiControlRuns),
  (["bidim", "bidimirrored"], bidiMirroredRuns),
  (["dash"], dashRuns),
  (["dep", "deprecated"], deprecatedRuns),
  (["dia", "diacritic"], diacriticRuns),
  (["emoji"], emojiRuns),
  (["ecomp", "emojicomponent"], emojiComponentRuns),
  (["emod", "emojimodifier"], emojiModifierRuns),
  (["ebase", "emojimodifierbase"], emojiModifierBaseRuns),
  (["epres", "emojipresentation"], emojiPresentationRuns),
  (["extpict", "extendedpictographic"], extendedPictographicRuns),
  (["ext", "extender"], extenderRuns),
  (["grlink", "graphemelink"], graphemeLinkRuns),
  (["hex", "hexdigit"], hexDigitRuns),
  (["hyphen"], hyphenRuns),
  (["idsb", "idsbinaryoperator"], idsBinaryOperatorRuns),
  (["idst", "idstrinaryoperator"], idsTrinaryOperatorRuns),
  (["idsu", "idsunaryoperator"], idsUnaryOperatorRuns),
  (["idcompatmathcontinue"], idCompatMathContinueRuns),
  (["idcompatmathstart"], idCompatMathStartRuns),
  (["ideo", "ideographic"], ideographicRuns),
  (["joinc", "joincontrol"], joinControlRuns),
  (["loe", "logicalorderexception"], logicalOrderExceptionRuns),
  (["mcm", "modifiercombiningmark"], modifierCombiningMarkRuns),
  (["nchar", "noncharactercodepoint"], noncharacterCodePointRuns),
  (["oalpha", "otheralphabetic"], otherAlphabeticRuns),
  (["odi", "otherdefaultignorablecodepoint"], otherDefaultIgnorableCodePointRuns),
  (["ogrext", "othergraphemeextend"], otherGraphemeExtendRuns),
  (["oidc", "otheridcontinue"], otherIdContinueRuns),
  (["oids", "otheridstart"], otherIdStartRuns),
  (["olower", "otherlowercase"], otherLowercaseRuns),
  (["omath", "othermath"], otherMathRuns),
  (["oupper", "otheruppercase"], otherUppercaseRuns),
  (["patsyn", "patternsyntax"], patternSyntaxRuns),
  (["patws", "patternwhitespace"], patternWhiteSpaceRuns),
  (["pcm", "prependedconcatenationmark"], prependedConcatenationMarkRuns),
  (["qmark", "quotationmark"], quotationMarkRuns),
  (["radical"], radicalRuns),
  (["ri", "regionalindicator"], regionalIndicatorRuns),
  (["sterm", "sentenceterminal"], sentenceTerminalRuns),
  (["sd", "softdotted"], softDottedRuns),
  (["term", "terminalpunctuation"], terminalPunctuationRuns),
  (["uideo", "unifiedideograph"], unifiedIdeographRuns),
  (["vs", "variationselector"], variationSelectorRuns),
  (["space", "wspace", "whitespace"], whiteSpaceRuns)]

namespace CharSet

/-- The characters of a table of one property. -/
def ofPropertyRuns (table : String) : CharSet :=
  .ofRuns table (· == "y")

/-! ### Properties made of others -/

def alphabetic : CharSet :=
  (ofCategories ["Lu", "Ll", "Lt", "Lm", "Lo", "Nl"]).union (ofPropertyRuns otherAlphabeticRuns)

def lowercase : CharSet :=
  (ofCategories ["Ll"]).union (ofPropertyRuns otherLowercaseRuns)

def uppercase : CharSet :=
  (ofCategories ["Lu"]).union (ofPropertyRuns otherUppercaseRuns)

def cased : CharSet :=
  (lowercase.union uppercase).union (ofCategories ["Lt"])

def math : CharSet :=
  (ofCategories ["Sm"]).union (ofPropertyRuns otherMathRuns)

def whiteSpace : CharSet :=
  ofPropertyRuns whiteSpaceRuns

def joinControl : CharSet :=
  ofPropertyRuns joinControlRuns

def graphemeExtend : CharSet :=
  (ofCategories ["Me", "Mn"]).union (ofPropertyRuns otherGraphemeExtendRuns)

def graphemeBase : CharSet :=
  ((ofCategories ["Cc", "Cf", "Cs", "Co", "Cn", "Zl", "Zp"]).union graphemeExtend).compl

/-- Interlinear annotations and the controls of hieroglyphs show, though they
are format characters. -/
def defaultIgnorable : CharSet :=
  let shown := ((ofPropertyRuns prependedConcatenationMarkRuns).union whiteSpace).union
    (ofList [(0xFFF9, 0xFFFB), (0x13430, 0x1343F)])
  (((ofPropertyRuns otherDefaultIgnorableCodePointRuns).union (ofCategories ["Cf"])).union
    (ofPropertyRuns variationSelectorRuns)).diff shown

def patternReserved : CharSet :=
  (ofPropertyRuns patternSyntaxRuns).union (ofPropertyRuns patternWhiteSpaceRuns)

def idStart : CharSet :=
  (((ofCategories ["Lu", "Ll", "Lt", "Lm", "Lo", "Nl"]).union
    (ofPropertyRuns otherIdStartRuns)).diff patternReserved)

def idContinue : CharSet :=
  ((idStart.union (ofCategories ["Mn", "Mc", "Nd", "Pc"])).union
    (ofPropertyRuns otherIdContinueRuns)).diff patternReserved

/-- Letters whose compatibility forms are no identifiers. -/
def brokenByCompatibility : CharSet :=
  ofList [
    (0x37A, 0x37A), (0x309B, 0x309C), (0xFC5E, 0xFC63), (0xFDFA, 0xFDFB), (0xFE70, 0xFE70),
    (0xFE72, 0xFE72), (0xFE74, 0xFE74), (0xFE76, 0xFE76), (0xFE78, 0xFE78), (0xFE7A, 0xFE7A),
    (0xFE7C, 0xFE7C), (0xFE7E, 0xFE7E)]

/-- Letters whose compatibility forms start with a mark. -/
def markByCompatibility : CharSet :=
  ofList [
    (0xE33, 0xE33), (0xEB3, 0xEB3), (0xFF9E, 0xFF9F)]

def xidStart : CharSet :=
  idStart.diff (brokenByCompatibility.union markByCompatibility)

def xidContinue : CharSet :=
  idContinue.diff brokenByCompatibility

/-- Characters that join letters to a word. -/
def midLetter : CharSet :=
  ofList [
    (0x3A, 0x3A), (0xB7, 0xB7), (0x387, 0x387), (0x55F, 0x55F), (0x5F4, 0x5F4), (0x2027, 0x2027),
    (0xFE13, 0xFE13), (0xFE55, 0xFE55), (0xFF1A, 0xFF1A)]

/-- Characters that join letters to a word and digits to a number. -/
def midNumberLetter : CharSet :=
  ofList [
    (0x2E, 0x2E), (0x2018, 0x2019), (0x2024, 0x2024), (0xFE52, 0xFE52), (0xFF07, 0xFF07),
    (0xFF0E, 0xFF0E)]

def caseIgnorable : CharSet :=
  ((ofCategories ["Mn", "Me", "Cf", "Lm", "Sk"]).union (midLetter.union midNumberLetter)).union
    (singleton '\'')

/-- The characters that one of the mappings `kinds` changes. -/
def changedBy (kinds : List Char) : CharSet :=
  .ofRuns caseChangeRuns fun label => label.toList.any kinds.contains

/-- The characters with a property that is made of others. -/
def ofDerivedProperty? (name : String) : Option CharSet :=
  match name with
  | "alpha" | "alphabetic" => some alphabetic
  | "lower" | "lowercase" => some lowercase
  | "upper" | "uppercase" => some uppercase
  | "cased" => some cased
  | "math" => some math
  | "grext" | "graphemeextend" => some graphemeExtend
  | "grbase" | "graphemebase" => some graphemeBase
  | "di" | "defaultignorablecodepoint" => some defaultIgnorable
  | "ids" | "idstart" => some idStart
  | "idc" | "idcontinue" => some idContinue
  | "xids" | "xidstart" => some xidStart
  | "xidc" | "xidcontinue" => some xidContinue
  | "ci" | "caseignorable" => some caseIgnorable
  | "cwl" | "changeswhenlowercased" => some (changedBy ['L'])
  | "cwu" | "changeswhenuppercased" => some (changedBy ['U'])
  | "cwt" | "changeswhentitlecased" => some (changedBy ['T'])
  | "cwcf" | "changeswhencasefolded" => some (changedBy ['F'])
  | "cwcm" | "changeswhencasemapped" => some (changedBy ['L', 'U', 'T'])
  | _ => none

/-- The characters with a property, by one of its names. -/
def ofProperty? (name : String) : Option CharSet :=
  ofDerivedProperty? name <|>
    ((propertyNames.find? fun entry => entry.1.contains name).map fun entry =>
      ofPropertyRuns entry.2)

end CharSet

end DomQuery.Text
