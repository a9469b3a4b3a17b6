/-
The general categories of marks, punctuation, symbols and separators.

* `marks`, `spacingMarks`, `punctuation`, `connectors`, `symbols`, `separators`: the ranges.
-/
import Verdict.Unicode.Ranges

namespace Verdict
namespace Unicode

/-- Combining marks. -/
def marks : Ranges :=
  [(768, 879, 1), (1155, 1161, 1), (1425, 1469, 1), (1471, 1471, 1), (1473, 1474, 1),
    (1476, 1477, 1), (1479, 1479, 1), (1552, 1562, 1), (1611, 1631, 1), (1648, 1648, 1),
    (1750, 1756, 1), (1759, 1764, 1), (1767, 1768, 1), (1770, 1773, 1), (1809, 1809, 1),
    (1840, 1866, 1), (1958, 1968, 1), (2027, 2035, 1), (2045, 2045, 1), (2070, 2073, 1),
    (2075, 2083, 1), (2085, 2087, 1), (2089, 2093, 1), (2137, 2139, 1), (2200, 2207, 1),
    (2250, 2273, 1), (2275, 2307, 1), (2362, 2364, 1), (2366, 2383, 1), (2385, 2391, 1),
    (2402, 2403, 1), (2433, 2435, 1), (2492, 2492, 1), (2494, 2500, 1), (2503, 2504, 1),
    (2507, 2509, 1), (2519, 2519, 1), (2530, 2531, 1), (2558, 2558, 1), (2561, 2563, 1),
    (2620, 2620, 1), (2622, 2626, 1), (2631, 2632, 1), (2635, 2637, 1), (2641, 2641, 1),
    (2672, 2673, 1), (2677, 2677, 1), (2689, 2691, 1), (2748, 2748, 1), (2750, 2757, 1),
    (2759, 2761, 1), (2763, 2765, 1), (2786, 2787, 1), (2810, 2815, 1), (2817, 2819, 1),
    (2876, 2876, 1), (2878, 2884, 1), (2887, 2888, 1), (2891, 2893, 1), (2901, 2903, 1),
    (2914, 2915, 1), (2946, 2946, 1), (3006, 3010, 1), (3014, 3016, 1), (3018, 3021, 1),
    (3031, 3031, 1), (3072, 3076, 1), (3132, 3132, 1), (3134, 3140, 1), (3142, 3144, 1),
    (3146, 3149, 1), (3157, 3158, 1), (3170, 3171, 1), (3201, 3203, 1), (3260, 3260, 1),
    (3262, 3268, 1), (3270, 3272, 1), (3274, 3277, 1), (3285, 3286, 1), (3298, 3299, 1),
    (3328, 3331, 1), (3387, 3388, 1), (3390, 3396, 1), (3398, 3400, 1), (3402, 3405, 1),
    (3415, 3415, 1), (3426, 3427, 1), (3457, 3459, 1), (3530, 3530, 1), (3535, 3540, 1),
    (3542, 3542, 1), (3544, 3551, 1), (3570, 3571, 1), (3633, 3633, 1), (3636, 3642, 1),
    (3655, 3662, 1), (3761, 3761, 1), (3764, 3772, 1), (3784, 3789, 1), (3864, 3865, 1),
    (3893, 3897, 2), (3902, 3903, 1), (3953, 3972, 1), (3974, 3975, 1), (3981, 3991, 1),
    (3993, 4028, 1), (4038, 4038, 1), (4139, 4158, 1), (4182, 4185, 1), (4190, 4192, 1),
    (4194, 4196, 1), (4199, 4205, 1), (4209, 4212, 1), (4226, 4237, 1), (4239, 4239, 1),
    (4250, 4253, 1), (4957, 4959, 1), (5906, 5909, 1), (5938, 5940, 1), (5970, 5971, 1),
    (6002, 6003, 1), (6068, 6099, 1), (6109, 6109, 1), (6155, 6157, 1), (6159, 6159, 1),
    (6277, 6278, 1), (6313, 6313, 1), (6432, 6443, 1), (6448, 6459, 1), (6679, 6683, 1),
    (6741, 6750, 1), (6752, 6780, 1), (6783, 6783, 1), (6832, 6862, 1), (6912, 6916, 1),
    (6964, 6980, 1), (7019, 7027, 1), (7040, 7042, 1), (7073, 7085, 1), (7142, 7155, 1),
    (7204, 7223, 1), (7376, 7378, 1), (7380, 7400, 1), (7405, 7405, 1), (7412, 7412, 1),
    (7415, 7417, 1), (7616, 7679, 1), (8400, 8432, 1), (11503, 11505, 1), (11647, 11647, 1),
    (11744, 11775, 1), (12330, 12335, 1), (12441, 12442, 1), (42607, 42610, 1), (42612, 42621, 1),
    (42654, 42655, 1), (42736, 42737, 1), (43010, 43010, 1), (43014, 43014, 1), (43019, 43019, 1),
    (43043, 43047, 1), (43052, 43052, 1), (43136, 43137, 1), (43188, 43205, 1), (43232, 43249, 1),
    (43263, 43263, 1), (43302, 43309, 1), (43335, 43347, 1), (43392, 43395, 1), (43443, 43456, 1),
    (43493, 43493, 1), (43561, 43574, 1), (43587, 43587, 1), (43596, 43597, 1), (43643, 43645, 1),
    (43696, 43696, 1), (43698, 43700, 1), (43703, 43704, 1), (43710, 43711, 1), (43713, 43713, 1),
    (43755, 43759, 1), (43765, 43766, 1), (44003, 44010, 1), (44012, 44013, 1), (64286, 64286, 1),
    (65024, 65039, 1), (65056, 65071, 1), (66045, 66045, 1), (66272, 66272, 1), (66422, 66426, 1),
    (68097, 68099, 1), (68101, 68102, 1), (68108, 68111, 1), (68152, 68154, 1), (68159, 68159, 1),
    (68325, 68326, 1), (68900, 68903, 1), (69291, 69292, 1), (69446, 69456, 1), (69506, 69509, 1),
    (69632, 69634, 1), (69688, 69702, 1), (69744, 69744, 1), (69747, 69748, 1), (69759, 69762, 1),
    (69808, 69818, 1), (69826, 69826, 1), (69888, 69890, 1), (69927, 69940, 1), (69957, 69958, 1),
    (70003, 70003, 1), (70016, 70018, 1), (70067, 70080, 1), (70089, 70092, 1), (70094, 70095, 1),
    (70188, 70199, 1), (70206, 70206, 1), (70367, 70378, 1), (70400, 70403, 1), (70459, 70460, 1),
    (70462, 70468, 1), (70471, 70472, 1), (70475, 70477, 1), (70487, 70487, 1), (70498, 70499, 1),
    (70502, 70508, 1), (70512, 70516, 1), (70709, 70726, 1), (70750, 70750, 1), (70832, 70851, 1),
    (71087, 71093, 1), (71096, 71104, 1), (71132, 71133, 1), (71216, 71232, 1), (71339, 71351, 1),
    (71453, 71467, 1), (71724, 71738, 1), (71984, 71989, 1), (71991, 71992, 1), (71995, 71998, 1),
    (72000, 72000, 1), (72002, 72003, 1), (72145, 72151, 1), (72154, 72160, 1), (72164, 72164, 1),
    (72193, 72202, 1), (72243, 72249, 1), (72251, 72254, 1), (72263, 72263, 1), (72273, 72283, 1),
    (72330, 72345, 1), (72751, 72758, 1), (72760, 72767, 1), (72850, 72871, 1), (72873, 72886, 1),
    (73009, 73014, 1), (73018, 73018, 1), (73020, 73021, 1), (73023, 73029, 1), (73031, 73031, 1),
    (73098, 73102, 1), (73104, 73105, 1), (73107, 73111, 1), (73459, 73462, 1), (92912, 92916, 1),
    (92976, 92982, 1), (94031, 94031, 1), (94033, 94087, 1), (94095, 94098, 1), (94180, 94180, 1),
    (94192, 94193, 1), (113821, 113822, 1), (118528, 118573, 1), (118576, 118598, 1),
    (119141, 119145, 1), (119149, 119154, 1), (119163, 119170, 1), (119173, 119179, 1),
    (119210, 119213, 1), (119362, 119364, 1), (121344, 121398, 1), (121403, 121452, 1),
    (121461, 121461, 1), (121476, 121476, 1), (121499, 121503, 1), (121505, 121519, 1),
    (122880, 122886, 1), (122888, 122904, 1), (122907, 122913, 1), (122915, 122916, 1),
    (122918, 122922, 1), (123184, 123190, 1), (123566, 123566, 1), (123628, 123631, 1),
    (125136, 125142, 1), (125252, 125258, 1), (917760, 917999, 1)]

/-- Marks that take a place of their own beside the character they belong to. -/
def spacingMarks : Ranges :=
  [(2307, 2307, 1), (2363, 2363, 1), (2366, 2368, 1), (2377, 2380, 1), (2382, 2383, 1),
    (2434, 2435, 1), (2495, 2496, 1), (2503, 2504, 1), (2507, 2508, 1), (2563, 2563, 1),
    (2622, 2624, 1), (2691, 2691, 1), (2750, 2752, 1), (2761, 2761, 1), (2763, 2764, 1),
    (2818, 2819, 1), (2880, 2880, 1), (2887, 2888, 1), (2891, 2892, 1), (3007, 3007, 1),
    (3009, 3010, 1), (3014, 3016, 1), (3018, 3020, 1), (3073, 3075, 1), (3137, 3140, 1),
    (3202, 3203, 1), (3262, 3262, 1), (3265, 3265, 1), (3267, 3268, 1), (3330, 3331, 1),
    (3391, 3392, 1), (3398, 3400, 1), (3402, 3404, 1), (3458, 3459, 1), (3536, 3537, 1),
    (3544, 3550, 1), (3570, 3571, 1), (3902, 3903, 1), (3967, 3967, 1), (4139, 4140, 1),
    (4145, 4145, 1), (4152, 4152, 1), (4155, 4156, 1), (4182, 4183, 1), (4194, 4196, 1),
    (4199, 4205, 1), (4227, 4228, 1), (4231, 4236, 1), (4239, 4239, 1), (4250, 4252, 1),
    (6070, 6070, 1), (6078, 6085, 1), (6087, 6088, 1), (6435, 6438, 1), (6441, 6443, 1),
    (6448, 6449, 1), (6451, 6456, 1), (6681, 6682, 1), (6741, 6743, 2), (6753, 6753, 1),
    (6755, 6756, 1), (6765, 6770, 1), (6916, 6916, 1), (6974, 6977, 1), (7042, 7042, 1),
    (7073, 7073, 1), (7078, 7079, 1), (7143, 7143, 1), (7146, 7148, 1), (7150, 7150, 1),
    (7204, 7211, 1), (7220, 7221, 1), (7393, 7393, 1), (7415, 7415, 1), (43043, 43044, 1),
    (43047, 43047, 1), (43136, 43137, 1), (43188, 43203, 1), (43346, 43346, 1), (43395, 43395, 1),
    (43444, 43445, 1), (43450, 43451, 1), (43454, 43455, 1), (43567, 43568, 1), (43571, 43572, 1),
    (43597, 43597, 1), (43643, 43645, 2), (43755, 43755, 1), (43758, 43759, 1), (43765, 43765, 1),
    (44003, 44004, 1), (44006, 44007, 1), (44009, 44010, 1), (44012, 44012, 1), (69632, 69634, 2),
    (69762, 69762, 1), (69808, 69810, 1), (69815, 69816, 1), (69932, 69932, 1), (69957, 69958, 1),
    (70018, 70018, 1), (70067, 70069, 1), (70079, 70079, 1), (70094, 70094, 1), (70188, 70190, 1),
    (70194, 70195, 1), (70368, 70370, 1), (70402, 70403, 1), (70463, 70463, 1), (70465, 70468, 1),
    (70471, 70472, 1), (70475, 70476, 1), (70498, 70499, 1), (70709, 70711, 1), (70720, 70721, 1),
    (70725, 70725, 1), (70833, 70834, 1), (70841, 70841, 1), (70843, 70844, 1), (70846, 70846, 1),
    (70849, 70849, 1), (71088, 71089, 1), (71096, 71099, 1), (71102, 71102, 1), (71216, 71218, 1),
    (71227, 71228, 1), (71230, 71230, 1), (71340, 71340, 1), (71342, 71343, 1), (71456, 71457, 1),
    (71462, 71462, 1), (71724, 71726, 1), (71736, 71736, 1), (71985, 71989, 1), (71991, 71992, 1),
    (72000, 72002, 2), (72145, 72147, 1), (72156, 72159, 1), (72164, 72164, 1), (72249, 72249, 1),
    (72279, 72280, 1), (72343, 72343, 1), (72751, 72751, 1), (72766, 72766, 1), (72873, 72873, 1),
    (72881, 72881, 1), (72884, 72884, 1), (73098, 73102, 1), (73107, 73108, 1), (73110, 73110, 1),
    (73461, 73462, 1), (94033, 94087, 1)]

/-- Punctuation of every kind. -/
def punctuation : Ranges :=
  [(33, 35, 1), (37, 42, 1), (44, 47, 1), (58, 59, 1), (63, 64, 1), (91, 93, 1), (95, 95, 1),
    (123, 125, 2), (161, 161, 1), (167, 167, 1), (171, 171, 1), (182, 183, 1), (187, 187, 1),
    (191, 191, 1), (894, 894, 1), (903, 903, 1), (1370, 1375, 1), (1417, 1418, 1),
    (1470, 1472, 2), (1475, 1475, 1), (1478, 1478, 1), (1523, 1524, 1), (1545, 1546, 1),
    (1548, 1549, 1), (1563, 1563, 1), (1565, 1567, 1), (1642, 1645, 1), (1748, 1748, 1),
    (1792, 1805, 1), (2039, 2041, 1), (2096, 2110, 1), (2142, 2142, 1), (2404, 2405, 1),
    (2416, 2416, 1), (2557, 2557, 1), (2678, 2678, 1), (2800, 2800, 1), (3191, 3191, 1),
    (3204, 3204, 1), (3572, 3572, 1), (3663, 3663, 1), (3674, 3675, 1), (3844, 3858, 1),
    (3860, 3860, 1), (3898, 3901, 1), (3973, 3973, 1), (4048, 4052, 1), (4057, 4058, 1),
    (4170, 4175, 1), (4347, 4347, 1), (4960, 4968, 1), (5120, 5120, 1), (5742, 5742, 1),
    (5787, 5788, 1), (5867, 5869, 1), (5941, 5942, 1), (6100, 6102, 1), (6104, 6106, 1),
    (6144, 6154, 1), (6468, 6469, 1), (6686, 6687, 1), (6816, 6822, 1), (6824, 6829, 1),
    (7002, 7008, 1), (7037, 7038, 1), (7164, 7167, 1), (7227, 7231, 1), (7294, 7295, 1),
    (7360, 7367, 1), (7379, 7379, 1), (8208, 8231, 1), (8240, 8259, 1), (8261, 8273, 1),
    (8275, 8286, 1), (8317, 8318, 1), (8333, 8334, 1), (8968, 8971, 1), (9001, 9002, 1),
    (10088, 10101, 1), (10181, 10182, 1), (10214, 10223, 1), (10627, 10648, 1), (10712, 10715, 1),
    (10748, 10749, 1), (11513, 11516, 1), (11518, 11519, 1), (11632, 11632, 1), (11776, 11822, 1),
    (11824, 11855, 1), (11858, 11869, 1), (12289, 12291, 1), (12296, 12305, 1), (12308, 12319, 1),
    (12336, 12336, 1), (12349, 12349, 1), (12448, 12448, 1), (12539, 12539, 1), (42238, 42239, 1),
    (42509, 42511, 1), (42611, 42611, 1), (42622, 42622, 1), (42738, 42743, 1), (43124, 43127, 1),
    (43214, 43215, 1), (43256, 43258, 1), (43260, 43260, 1), (43310, 43311, 1), (43359, 43359, 1),
    (43457, 43469, 1), (43486, 43487, 1), (43612, 43615, 1), (43742, 43743, 1), (43760, 43761, 1),
    (44011, 44011, 1), (64830, 64831, 1), (65040, 65049, 1), (65072, 65106, 1), (65108, 65121, 1),
    (65123, 65123, 1), (65128, 65128, 1), (65130, 65131, 1), (65281, 65283, 1), (65285, 65290, 1),
    (65292, 65295, 1), (65306, 65307, 1), (65311, 65312, 1), (65339, 65341, 1), (65343, 65343, 1),
    (65371, 65373, 2), (65375, 65381, 1), (65792, 65794, 1), (66463, 66463, 1), (66512, 66512, 1),
    (66927, 66927, 1), (67671, 67671, 1), (67871, 67871, 1), (67903, 67903, 1), (68176, 68184, 1),
    (68223, 68223, 1), (68336, 68342, 1), (68409, 68415, 1), (68505, 68508, 1), (69293, 69293, 1),
    (69461, 69465, 1), (69510, 69513, 1), (69703, 69709, 1), (69819, 69820, 1), (69822, 69825, 1),
    (69952, 69955, 1), (70004, 70005, 1), (70085, 70088, 1), (70093, 70093, 1), (70107, 70107, 1),
    (70109, 70111, 1), (70200, 70205, 1), (70313, 70313, 1), (70731, 70735, 1), (70746, 70747, 1),
    (70749, 70749, 1), (70854, 70854, 1), (71105, 71127, 1), (71233, 71235, 1), (71264, 71276, 1),
    (71353, 71353, 1), (71484, 71486, 1), (71739, 71739, 1), (72004, 72006, 1), (72162, 72162, 1),
    (72255, 72262, 1), (72346, 72348, 1), (72350, 72354, 1), (72769, 72773, 1), (72816, 72817, 1),
    (73463, 73464, 1), (73727, 73727, 1), (74864, 74868, 1), (77809, 77810, 1), (92782, 92783, 1),
    (92917, 92917, 1), (92983, 92987, 1), (92996, 92996, 1), (93847, 93850, 1), (94178, 94178, 1),
    (113823, 113823, 1), (121479, 121483, 1), (125278, 125279, 1)]

/-- Connecting punctuation, such as the low line. -/
def connectors : Ranges :=
  [(95, 95, 1), (8255, 8256, 1), (8276, 8276, 1), (65075, 65076, 1), (65101, 65103, 1),
    (65343, 65343, 1)]

/-- Symbols of every kind. -/
def symbols : Ranges :=
  [(36, 36, 1), (43, 43, 1), (60, 62, 1), (94, 96, 2), (124, 126, 2), (162, 166, 1),
    (168, 169, 1), (172, 172, 1), (174, 177, 1), (180, 180, 1), (184, 184, 1), (215, 215, 1),
    (247, 247, 1), (706, 709, 1), (722, 735, 1), (741, 747, 1), (749, 749, 1), (751, 767, 1),
    (885, 885, 1), (900, 901, 1), (1014, 1014, 1), (1154, 1154, 1), (1421, 1423, 1),
    (1542, 1544, 1), (1547, 1547, 1), (1550, 1551, 1), (1758, 1758, 1), (1769, 1769, 1),
    (1789, 1790, 1), (2038, 2038, 1), (2046, 2047, 1), (2184, 2184, 1), (2546, 2547, 1),
    (2554, 2555, 1), (2801, 2801, 1), (2928, 2928, 1), (3059, 3066, 1), (3199, 3199, 1),
    (3407, 3407, 1), (3449, 3449, 1), (3647, 3647, 1), (3841, 3843, 1), (3859, 3859, 1),
    (3861, 3863, 1), (3866, 3871, 1), (3892, 3896, 2), (4030, 4037, 1), (4039, 4044, 1),
    (4046, 4047, 1), (4053, 4056, 1), (4254, 4255, 1), (5008, 5017, 1), (5741, 5741, 1),
    (6107, 6107, 1), (6464, 6464, 1), (6622, 6655, 1), (7009, 7018, 1), (7028, 7036, 1),
    (8125, 8125, 1), (8127, 8129, 1), (8141, 8143, 1), (8157, 8159, 1), (8173, 8175, 1),
    (8189, 8190, 1), (8260, 8260, 1), (8274, 8274, 1), (8314, 8316, 1), (8330, 8332, 1),
    (8352, 8384, 1), (8448, 8449, 1), (8451, 8454, 1), (8456, 8457, 1), (8468, 8468, 1),
    (8470, 8472, 1), (8478, 8483, 1), (8485, 8489, 2), (8494, 8494, 1), (8506, 8507, 1),
    (8512, 8516, 1), (8522, 8525, 1), (8527, 8527, 1), (8586, 8587, 1), (8592, 8967, 1),
    (8972, 9000, 1), (9003, 9254, 1), (9280, 9290, 1), (9372, 9449, 1), (9472, 10087, 1),
    (10132, 10180, 1), (10183, 10213, 1), (10224, 10626, 1), (10649, 10711, 1), (10716, 10747, 1),
    (10750, 11123, 1), (11126, 11157, 1), (11159, 11263, 1), (11493, 11498, 1), (11856, 11857, 1),
    (11904, 11929, 1), (11931, 12019, 1), (12032, 12245, 1), (12272, 12283, 1), (12292, 12292, 1),
    (12306, 12307, 1), (12320, 12320, 1), (12342, 12343, 1), (12350, 12351, 1), (12443, 12444, 1),
    (12688, 12689, 1), (12694, 12703, 1), (12736, 12771, 1), (12800, 12830, 1), (12842, 12871, 1),
    (12880, 12880, 1), (12896, 12927, 1), (12938, 12976, 1), (12992, 13311, 1), (19904, 19967, 1),
    (42128, 42182, 1), (42752, 42774, 1), (42784, 42785, 1), (42889, 42890, 1), (43048, 43051, 1),
    (43062, 43065, 1), (43639, 43641, 1), (43867, 43867, 1), (43882, 43883, 1), (64297, 64297, 1),
    (64434, 64450, 1), (64832, 64847, 1), (64975, 64975, 1), (65020, 65023, 1), (65122, 65122, 1),
    (65124, 65126, 1), (65129, 65129, 1), (65284, 65284, 1), (65291, 65291, 1), (65308, 65310, 1),
    (65342, 65344, 2), (65372, 65374, 2), (65504, 65510, 1), (65512, 65518, 1), (65532, 65533, 1),
    (65847, 65855, 1), (65913, 65929, 1), (65932, 65934, 1), (65936, 65948, 1), (65952, 65952, 1),
    (66000, 66044, 1), (67703, 67704, 1), (68296, 68296, 1), (71487, 71487, 1), (73685, 73713, 1),
    (92988, 92991, 1), (92997, 92997, 1), (113820, 113820, 1), (118608, 118723, 1),
    (118784, 119029, 1), (119040, 119078, 1), (119081, 119140, 1), (119146, 119148, 1),
    (119171, 119172, 1), (119180, 119209, 1), (119214, 119274, 1), (119296, 119361, 1),
    (119365, 119365, 1), (119552, 119638, 1), (120513, 120513, 1), (120539, 120539, 1),
    (120571, 120571, 1), (120597, 120597, 1), (120629, 120629, 1), (120655, 120655, 1),
    (120687, 120687, 1), (120713, 120713, 1), (120745, 120745, 1), (120771, 120771, 1),
    (120832, 121343, 1), (121399, 121402, 1), (121453, 121460, 1), (121462, 121475, 1),
    (121477, 121478, 1), (123215, 123215, 1), (123647, 123647, 1), (126124, 126124, 1),
    (126128, 126128, 1), (126254, 126254, 1), (126704, 126705, 1), (126976, 127019, 1),
    (127024, 127123, 1), (127136, 127150, 1), (127153, 127167, 1), (127169, 127183, 1),
    (127185, 127221, 1), (127245, 127405, 1), (127462, 127490, 1), (127504, 127547, 1),
    (127552, 127560, 1), (127568, 127569, 1), (127584, 127589, 1), (127744, 128727, 1),
    (128733, 128748, 1), (128752, 128764, 1), (128768, 128883, 1), (128896, 128984, 1),
    (128992, 129003, 1), (129008, 129008, 1), (129024, 129035, 1), (129040, 129095, 1),
    (129104, 129113, 1), (129120, 129159, 1), (129168, 129197, 1), (129200, 129201, 1),
    (129280, 129619, 1), (129632, 129645, 1), (129648, 129652, 1), (129656, 129660, 1),
    (129664, 129670, 1), (129680, 129708, 1), (129712, 129722, 1), (129728, 129733, 1),
    (129744, 129753, 1), (129760, 129767, 1), (129776, 129782, 1), (129792, 129938, 1),
    (129940, 129994, 1)]

/-- Blanks, line and paragraph separators. -/
def separators : Ranges :=
  [(32, 32, 1), (160, 160, 1), (5760, 5760, 1), (8192, 8202, 1), (8232, 8233, 1), (8239, 8239, 1),
    (8287, 8287, 1), (12288, 12288, 1)]

end Unicode
end Verdict
