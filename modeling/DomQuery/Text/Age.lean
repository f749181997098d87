import DomQuery.Text.CharSet

/-!
# Ages

The version of Unicode in which every character was assigned.
-/

namespace DomQuery.Text

/-- The ages of all code points as runs, from zero on: `A` for the first
version, `a` for the last, and `n` for what no version has assigned. -/
def ageRuns : String :=
  "A502D4A30D8F1G1D18G3H11I14A89D5G2A47D1A10D5G17A70D9F1G8H5G3A2D1F13J4A2J2n2A1I3A1P1n4A7n1A1
   n1A20n1A44J1A7D1F2A1D1A1D1A1D1A1D1A18E2F1G5H4D1A12D1A66D1A12D1A41J1D2F2D4A53F2A2F2A2F2I1
   A28D2A8H2A2I6F16I4J16K2L2P8n1A38n2A7T1A39T1A1D1n2P2M1n1B17H1B13A10I1A9B1H3n8A27n4T1A5n11G4
   M1P1J5H1A1G9J5A1O1X1H1A1L1A26J5A19D3G3H6L1A14F2A72D2A5D1A15D1A30G2A10D5G1D14n1D30G3D27n2G3
   H30J18D49F1n14I59n2T3K46n2K15n1L28n2L1n1S11n5X31n1X2n5a1X8M1P1M11P6Q2X1R8W10X11T1R15Q1M27
   P1K1A3G1A53L2A18K1L1A5K1L2A25J2L5P1K2I2H1I2P1A3n1A8n2A2n2A22n1A7n1A1n3A4n2A1G1A7n2A2n2A3H1
   n8A1n4A2n1A5n2A21K1S2T1n2G1A1G1n1A6n4A2n2A22n1A7n1A2n1A2n1A2n2A1n1A5n4A2n2A3n3J1n7A4n1A1n7
   A15J1T1n10A3n1A7G1A1n1A3n1A22n1A7n1A2n1A5n2A10n1A3n1A3n2A1n15A1G3n2A10M1G1n7Q1S6n1A3n1A8n2
   A2n2A22n1A7n1A2n1G1A4n2A8J1n2A2n2A3n7W1A2n4A2n1A3J2n2A11G1L6n10A2n1A6n3A3n1A4n3A2n1A1n1A2
   n3A2n3A3n3A8H1A3n4A5n3A3n1A4n2J1n6A1n14H1A12G8n5P1A3T1A8n1A3n1A23n1A10P1A5n2X1J1A7n1A3n1A4
   n7A2n1J2Q1n2X1n2A2J2n2A10n7U1J8R1P1A2T1A8n1A3n1A23n1A10n1A5n2G2A7n1A3n1A4n7A2n6X1A1n1A2I2
   n2A10n1I2Y1n12S1P1A2W1A8n1A3n1A23L1A16L1S2J1A6J1n1A3n1A4L1R1n4R3A1R7Q1A2J2n2A10J6R3J7n1W1
   D2n1D18n3D24n1D9n1D1n2D7n3D1n4D6n1D1n1D8n6P10n2D3n12A58n4A29n37A2n1A1n1U1A2U1A1n1U1A1U6A4
   U1A7U1A3n1A1n1A1U2A2U1A13U1A3n2A5n1A1n1A6Y1n1A10n2A2M2n32B72n1B33D1J2n4B27L4B6D1B1n1B21D3
   B7D1B1D3n1D15n1J1D1H2J3K4L2n37D34J1D5J1D2J1D7J3D4J6D26J64K4J2A38n1M1n5M1n2A39F2H2A1H1M3A90
   K5A68K5A82K6D7H1D63H1D1n1D4n2D7n1D1n1D4n2D39H1D1n1D4n2D31H1D1n1D4n2D7n1D1n1D4n2D7H1D7n1D23
   H1D31H1D1n1D4n2D7H1D39H1D19n2L2H2D28n3H26n6D85Q1n2Q6n2K1D630K9D29n3D81P8n7F13X1F7X1n9X1F23
   n9F20n12F13n1F3n1F2n12D93G1n2D10n6G10n6D15X1D10n6D88T1n7D42J1n5K70n10G29P2n1G12n4G12n4G1n3
   G42n2G5n11H42K2n4H26n6H10K1n3H2G32H28n2H2K63n1K29n2K11n6K10n6K14n2P15W2X14n49I76X1n1a2I45
   X2a1J43M3J12M6L52n8L4J56n3J15n3J51R9a2n5T43n2T3M8n8K35M4S1P2U1n5G108H88I7J28P15S4X1R1L1K1
   I2A155B1J4A90J6A22n2A6n2A38n2A6n2A8n1A1n1A1n1A1n1A31n2A53n1A15n1A14n2A6n1A19n2A3n1A9n1A47
   D1A23F1D6F5G2H2F1H7F5J1n1O4A7F1n2A27n1H5L8n3A11B1C1D3F2H4K3L1N1P3Q1S1X1n15A18D2F7H1I4J1n15
   A57D2G1H1F15H1I2J1K3A48D1I1J4K1Q2n4A91D9F12A242F14A1D1A121D1F1D30F52G2H11I12K1L11P7R4S1A37
   D2a3n22A11n21A139F20G1A150F10A80D8F8A20G2F2H1D1A86D2F12H2F10G8H11J1K2G2H16I1J10K3J4K10L1
   K19L1K1L4K24P1A4L1A4L2A28L1A35L1A1L1A4L3A1K1A7L2A7F14A31L3A24L1A14L1H7I4M1J1M1L2F28J4F16
   D256F512G14H6I7J5I4J41P3J5K5P26n2P32n1W1P34T3P12U1P8S1T25Q4T15U1H47X1H47X1I13J3K1J3I4J6K2
   H107K7M2n5H45n1M1n5M1n2H54M2n7H1L1n14L1H23n9H7n1H7n1H7n1H7n1H7n1H7n1H7n1H7n1J32H24J4H2J19
   K1M10P7R2S5T5U1W3X11n34D26n1D89n12D214n26D12Z4A56D3F3D1A1n1A84F2n2A6F2A94F1n5A40J1S1T1n1
   A94n1A16D24L3W5H16J20a2n9Z1F16A29G2n1A36K12G1F15A28G2H1A50F15A12G4A47V1A119G4A99G2A31G1
   D6582W10G64A20902H22J8K8M1Q9S21T5W13X3D1165n3D18F2D16F1D12F1D3F1D1n9K48J300n20J32L2J18M8
   J28P6Q1M1K88n8H23I4J5I2J107L2Q1L2M2P12L10M1P3R1T1P2Q6T2U6X2U5W4a3n2X2n1X1n1X5a3n21X3W2P1M2
   L1J5H44W1n3K10n6I56n8J69R1n8J12n6K28Q2T2J84n11J1K29n3K78n1K11n4K2P31n1J55n9J14n2J10n2J4K28
   P4K67n24K5M23n10L6n2L6n2L6n9L7n1L7n1P48Q4P2U2W4n4Q80K46n2K10n6B11172n12K23n4K49n2052A6702
   M2F59K3n2H106n38A7n12A5n5D1A25n1A5n1A1n1A2n1A2n1A108L16X1n16A365X16A64n2A54n7X1E32A12F1G1
   X2F16H10n6A4J3P7Q2A21F2G2A10n1A19n1A4n4A3F1A1n1A135n2A1n1A94F2A94n3A6n2A6n2A6n2A3n3A7n1A7
   n10D3C1A3G12n1G26n1G19n1G2n1G15n2G14n34G123n5G3n4G45n3G9H75P2R2n1J12W1n3P1n47J46n130J29n3
   J49n15P28n4E31P1E4n9S3E27n5P43n5G30n1G1H36n4H14n42E38G2E38G80n2G10n6R36n4R36n4P40n8P52n11
   P1X11n1X15n1X7n1X2n1X11n1X15n1X7n1X2n3a52n12P311n9P22n10P8n24X6n1X42n1X9n69G6n2G1n1G44n1G2
   n3G1n2G1K22n1K9P63n8P9n48Q19n1Q2n5Q5I26K2n3I1J26n5J1n64M56n4Q2M2Q16n2Q46H4n1H2n5H8n1H3n1
   H27T2n2H3n4H9T1n7H9n7K32P32n32P39n4P12n9K54n3K29n2K27n5K8P18n7P4n12P7n80K73n55Q51n13Q51n7
   Q6T40n8T10n6a38n3a29n8a2n208K31n1W42n1W3n2W2n16a3n55a1Y3T40n8T42n22X26n38W28n20U23n9L78n4
   L30X6n9P1K66X1n10T1n2M25n7M10n6M53n1M14T3W1n8P39n9M73Q4P1W2M10P1Q5n1P20n11P18n1P43R1Y3n62
   Q7n1Q1n1Q4n1Q15n1Q11n6P59n5P10n6Q1P3n1P8n2P2n2P22n1P7n1P2n1P5n1T1P9n2P2n2P3n2Q1n6P1n5P7n2
   P7n3P5n11a10n1a1n2a1n1a38n1a10n1a1n2a1n1a4n1a10n1a2n8a2n29R90W1R1n1R1T1U1W2n30P72n8P10n166
   P54n2P18Q20n34P69n11P10n6R13n19M56U1X1n6M10n6a20n28Q26T1n2Q15n4Q16X7n185T60n100P83n12P1W7
   n2W1n2W8n1W2n1W30n1W2n2W12n9W10n70U8n2U46n2U11n27S72n8S52U2S23T1S5n13X16P57n7Y10n182a34n14
   a10n6R9n1R45n1R14n10R29n3R32n2R22n1R14n73S7n1S2n1S44n3S1n1S2n1S9n8S10n6T6n1T2n1T37n1T2n1T6
   n7T10n310T25n7Y17n1Y41n3Y28a1n85W1n15U50n13U1I879P42Q1n102I99P12n1I4P1n11Q196n2636X99n13
   K1071Y1U9Y29n10a3995n5Q583n6841a58n1734L569n7P31n1P10n4P2X79n1X10n6P30n2P6n10P70n10P10n1P7
   n1P21n5P19n432a58n198T91n101M69U6n4U1M47U9n7M17n64R1S1U2W1n11W2n14R6125T5U6n8R755W483n41a1
   W9n8935X4n1X7n1X2n1L2S285X4n15Y1n29U3n2Y1n14U4n8S396n2308P107n5P13n3P9n7P10n2P8n3932a250n6
   a436n76X46n2X23n9X116n60E246n10E39n2J1E180Q11X2n21H70n122Y20n12T20n12G87n9I18T7n135E85n1
   E71n1E2n2E1n2E2n2E4n1E12n1E1n1E4G1E2n1E65n1E4n2E8n1E7n1E28n1E4n1E5n1E1n3E7n1E338H2n2E290I2
   n2E50Q652n15Q5n1Q15n1104X31n6Y6n213R7n1R17n2R7n1R2n1R5n5Y62n33Y1n112U45n3U14n2U10n4U2n320
   X31n17U58n5U1n464Y42n214a43n4a1n480X7n1X4n1X2n1X15n1P197n2P16n41R75U1n4R10n4R2n785T68n76
   U61n194M4n1M27n1M2n1M1n2M1n1M10n1M4n1M1n1M1n6M1n4M1n1M1n1M1n1M3n1M2n1M1n2M1n1M1n1M1n1M1n1
   M1n1M2n1M1n2M4n1M7n1M4n1M4n1M1n1M10n1M17n5M3n1M5n1M17n52M2n270J44n4J100n12L15n2L14P1n1L15
   n1L15P22n10K11P2W3K31T1L1K1L11K1L1K1L2K1L3K1L3K5L8K1L7K1L10M2U1W3L9K1L1K2L2K1L10K4L2K1L10
   R18W1n56L26K1L2n13K34L9R1n4K9n7L2n14S6n154L33P12Q3L6P1L70P1Q2L20P12L37P1L5P4Q5P12L17P7Q8
   L63P1L1P1L182P1L4P2Q1L62P2M4P7Q5L24P18R1P41R1P86L5M1L16M1L3M1L1M1L1M1L1M1L3M1L6M2L4M1L1M2
   L4M1L12P2Q2L11P48L70P10Q1R2S2U1W2n4Y1X3P13n3P4R3S2T1U1W2n3L116Y3n4Y5P85T4Y1n6U12n4X1n15P12
   n4P56n8P10n6P40n8P30n2W2a10n4a2n62S12W1U3Q9R6S1R8S8R1S2R12U1R12S1T3R15S13T5U1W1T4W2X1T1U1
   T4Q5R13S6T11W2U6W3U2T10U6Q1T2U8W1X1U3S23T25U84n12T14n2U4W1Y3U3X2n3U3W4Y2a1n5a1U6W19X4Y3W7
   X4Y3a1Y1W3X3a1n7Y2W7X3Y2a1n2a1X8Y1a1n6X7Y2n7W147n1W55a37W10n1028B2E42711W7X2n32K4149X4Y1n6
   L222n2Q5762n14S7473n15Z622n2466E542n1504B2W4939n5Y4192n56398B2n65534B2n65534B2n65534B2
   n65534B2n65534B2n65534B2n65534B2n65534B2n65534B2n65534B2n1E1n30E96n128G240n65038B131074"

/-- Names of versions, oldest first, and the labels of their characters. -/
def ageNames : List (List String × String) := [
  (["1.1", "v11"], "A"), (["2.0", "v20"], "B"), (["2.1", "v21"], "C"), (["3.0", "v30"], "D"),
  (["3.1", "v31"], "E"), (["3.2", "v32"], "F"), (["4.0", "v40"], "G"), (["4.1", "v41"], "H"),
  (["5.0", "v50"], "I"), (["5.1", "v51"], "J"), (["5.2", "v52"], "K"), (["6.0", "v60"], "L"),
  (["6.1", "v61"], "M"), (["6.2", "v62"], "N"), (["6.3", "v63"], "O"), (["7.0", "v70"], "P"),
  (["8.0", "v80"], "Q"), (["9.0", "v90"], "R"), (["10.0", "v100"], "S"), (["11.0", "v110"], "T"),
  (["12.0", "v120"], "U"), (["12.1", "v121"], "V"), (["13.0", "v130"], "W"),
  (["14.0", "v140"], "X"), (["15.0", "v150"], "Y"), (["15.1", "v151"], "Z"),
  (["16.0", "v160"], "a")]

/-- The versions up to the one called `name`. -/
def agesUpTo? (name : String) : List (List String × String) → Option (List String)
  | [] => none
  | (names, label) :: later =>
    if names.contains name then some [label] else (agesUpTo? name later).map (label :: ·)

/-- The characters that were assigned in a version, by one of its names. -/
def CharSet.ofAge? (name : String) : Option CharSet :=
  (agesUpTo? name ageNames).map fun labels => .ofRuns ageRuns fun label => labels.contains label

end DomQuery.Text
