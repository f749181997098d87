import DomQuery.Text.CharSet

/-!
# Case variants

Which characters are the same up to case. Most have one variant, and those are
kept as series of pairs; the others are listed with all their variants.
-/

namespace DomQuery.Text

/-- Series of pairs: the first character, the distance to its variant, the
distance to the next pair and the number of pairs. -/
def casePairs : List (Nat × Nat × Nat × Nat) := [
  (65, 32, 1, 10), (76, 32, 1, 7), (84, 32, 1, 7), (192, 32, 1, 5), (198, 32, 1, 17),
  (216, 32, 1, 7), (223, 7615, 1, 1), (255, 121, 1, 1), (256, 1, 2, 24), (306, 1, 2, 3),
  (313, 1, 2, 8), (330, 1, 2, 23), (377, 1, 2, 3), (384, 195, 1, 1), (385, 210, 1, 1),
  (386, 1, 2, 2), (390, 206, 1, 1), (391, 1, 1, 1), (393, 205, 1, 2), (395, 1, 1, 1),
  (398, 79, 1, 1), (399, 202, 1, 1), (400, 203, 1, 1), (401, 1, 1, 1), (403, 205, 1, 1),
  (404, 207, 1, 1), (405, 97, 1, 1), (406, 211, 1, 1), (407, 209, 1, 1), (408, 1, 1, 1),
  (410, 163, 1, 1), (411, 42561, 1, 1), (412, 211, 1, 1), (413, 213, 1, 1), (414, 130, 1, 1),
  (415, 214, 1, 1), (416, 1, 2, 3), (422, 218, 1, 1), (423, 1, 1, 1), (425, 218, 1, 1),
  (428, 1, 1, 1), (430, 218, 1, 1), (431, 1, 1, 1), (433, 217, 1, 2), (435, 1, 2, 2),
  (439, 219, 1, 1), (440, 1, 1, 1), (444, 1, 1, 1), (447, 56, 1, 1), (461, 1, 2, 8),
  (478, 1, 2, 9), (500, 1, 1, 1), (504, 1, 2, 20), (546, 1, 2, 9), (570, 10795, 1, 1),
  (571, 1, 1, 1), (574, 10792, 1, 1), (575, 10815, 1, 2), (577, 1, 1, 1), (580, 69, 1, 1),
  (581, 71, 1, 1), (582, 1, 2, 5), (592, 10783, 1, 1), (593, 10780, 1, 1),
  (594, 10782, 1, 1), (604, 42319, 1, 1), (609, 42315, 1, 1), (612, 42343, 1, 1),
  (613, 42280, 1, 1), (614, 42308, 1, 1), (618, 42308, 1, 1), (619, 10743, 1, 1),
  (620, 42305, 1, 1), (625, 10749, 1, 1), (637, 10727, 1, 1), (642, 42307, 1, 1),
  (647, 42282, 1, 1), (669, 42261, 1, 1), (670, 42258, 1, 1), (880, 1, 2, 2), (886, 1, 1, 1),
  (891, 130, 1, 3), (895, 116, 1, 1), (902, 38, 1, 1), (904, 37, 1, 3), (908, 64, 1, 1),
  (910, 63, 1, 2), (912, 7235, 1, 1), (913, 32, 2, 2), (916, 32, 2, 2), (919, 32, 1, 1),
  (923, 32, 2, 3), (926, 32, 1, 1), (932, 32, 1, 2), (935, 32, 1, 2), (938, 32, 1, 2),
  (944, 7219, 1, 1), (975, 8, 1, 1), (984, 1, 2, 12), (1010, 7, 1, 1), (1015, 1, 1, 1),
  (1018, 1, 1, 1), (1024, 80, 1, 16), (1040, 32, 1, 2), (1043, 32, 2, 7), (1046, 32, 2, 4),
  (1056, 32, 1, 1), (1059, 32, 1, 7), (1067, 32, 1, 5), (1120, 1, 1, 1), (1124, 1, 2, 15),
  (1162, 1, 2, 27), (1216, 15, 1, 1), (1217, 1, 2, 7), (1232, 1, 2, 48), (1329, 48, 1, 38),
  (4256, 7264, 1, 38), (4295, 7264, 1, 1), (4301, 7264, 1, 1), (4304, 3008, 1, 43),
  (4349, 3008, 1, 3), (5024, 38864, 1, 80), (5104, 8, 1, 6), (7305, 1, 1, 1),
  (7545, 35332, 1, 1), (7549, 3814, 1, 1), (7566, 35384, 1, 1), (7680, 1, 2, 48),
  (7778, 1, 2, 26), (7840, 1, 2, 48), (7936, 8, 1, 8), (7952, 8, 1, 6), (7968, 8, 1, 8),
  (7984, 8, 1, 8), (8000, 8, 1, 6), (8017, 8, 2, 4), (8032, 8, 1, 8), (8048, 74, 1, 2),
  (8050, 86, 1, 4), (8054, 100, 1, 2), (8056, 128, 1, 2), (8058, 112, 1, 2),
  (8060, 126, 1, 2), (8064, 8, 1, 8), (8080, 8, 1, 8), (8096, 8, 1, 8), (8112, 8, 1, 2),
  (8115, 9, 1, 1), (8131, 9, 1, 1), (8144, 8, 1, 2), (8160, 8, 1, 2), (8165, 7, 1, 1),
  (8179, 9, 1, 1), (8498, 28, 1, 1), (8544, 16, 1, 16), (8579, 1, 1, 1), (9398, 26, 1, 26),
  (11264, 48, 1, 48), (11360, 1, 1, 1), (11367, 1, 2, 3), (11378, 1, 1, 1), (11381, 1, 1, 1),
  (11392, 1, 2, 50), (11499, 1, 2, 2), (11506, 1, 1, 1), (42560, 1, 2, 5), (42572, 1, 2, 17),
  (42624, 1, 2, 14), (42786, 1, 2, 7), (42802, 1, 2, 31), (42873, 1, 2, 2), (42878, 1, 2, 5),
  (42891, 1, 1, 1), (42896, 1, 2, 2), (42900, 48, 1, 1), (42902, 1, 2, 10),
  (42931, 928, 1, 1), (42932, 1, 2, 8), (42951, 1, 2, 2), (42956, 1, 1, 1), (42960, 1, 1, 1),
  (42966, 1, 2, 3), (42997, 1, 1, 1), (64261, 1, 1, 1), (65313, 32, 1, 26),
  (66560, 40, 1, 40), (66736, 40, 1, 36), (66928, 39, 1, 11), (66940, 39, 1, 15),
  (66956, 39, 1, 7), (66964, 39, 1, 2), (68736, 64, 1, 51), (68944, 32, 1, 22),
  (71840, 32, 1, 32), (93760, 32, 1, 32), (125184, 34, 1, 34)]

/-- Characters with more than one variant, together with those. -/
def caseGroups : List (List Nat) := [
  [75, 107, 8490], [83, 115, 383], [181, 924, 956], [197, 229, 8491], [452, 453, 454],
  [455, 456, 457], [458, 459, 460], [497, 498, 499], [837, 921, 953, 8126], [914, 946, 976],
  [917, 949, 1013], [920, 952, 977, 1012], [922, 954, 1008], [928, 960, 982],
  [929, 961, 1009], [931, 962, 963], [934, 966, 981], [937, 969, 8486], [1042, 1074, 7296],
  [1044, 1076, 7297], [1054, 1086, 7298], [1057, 1089, 7299], [1058, 1090, 7300, 7301],
  [1066, 1098, 7302], [1122, 1123, 7303], [7304, 42570, 42571], [7776, 7777, 7835]]

/-- The pairs of a series. -/
def pairsOf (series : Nat × Nat × Nat × Nat) : List (List Nat) :=
  let (start, distance, stride, count) := series
  (List.range count).map fun i => [start + i * stride, start + i * stride + distance]

/-- All classes of characters that are the same up to case. -/
def caseOrbits : List (List Nat) :=
  casePairs.flatMap pairsOf ++ caseGroups

/-- The set with all case variants of its characters. -/
def CharSet.closeCase (s : CharSet) : CharSet :=
  let variants := caseOrbits.filter fun orbit => orbit.any s.hasCode
  s.union (.ofList (variants.flatMap fun orbit => orbit.map fun n => (n, n)))

end DomQuery.Text
