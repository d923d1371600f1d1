/-!
# General categories

The general category of every code point, as runs: each entry stands for the code points from
`entry / 32` up to the next entry, which have the category numbered `entry % 32` in `Category.all`.
The table is that of version 14 of the Unicode character database: no version is named where
patterns and texts are read, and this is the one that is meant.  Code points that later versions
assign are unassigned here.
-/

namespace LogWatch.Text.Unicode

/-- The general categories, in the order that the runs number them. -/
inductive Category where
  | cn | cc | cf | cs | co | lu | ll | lt | lm | lo
  | mn | mc | me | nd | nl | no | pc | pd | ps | pe
  | pi | pf | po | sm | sc | sk | so | zs | zl | zp
deriving DecidableEq, Repr

/-- All categories, each at its number. -/
def Category.all : Array Category := #[
  .cn, .cc, .cf, .cs, .co, .lu, .ll, .lt, .lm, .lo, .mn, .mc,
  .me, .nd, .nl, .no, .pc, .pd, .ps, .pe, .pi, .pf, .po, .sm,
  .sc, .sk, .so, .zs, .zl, .zp]

/-- Runs 0 to 399. -/
def categoryRuns1 : Array Nat := #[
  1, 1051, 1078, 1176, 1206, 1298, 1331, 1366, 1399, 1430, 1457, 1494,
  1549, 1878, 1943, 2038, 2085, 2930, 2966, 2995, 3033, 3056, 3097, 3110,
  3954, 3991, 4019, 4055, 4065, 5147, 5174, 5208, 5338, 5366, 5401, 5434,
  5449, 5492, 5527, 5538, 5594, 5625, 5658, 5687, 5711, 5785, 5798, 5846,
  5913, 5935, 5961, 6005, 6031, 6134, 6149, 6903, 6917, 7142, 7927, 7942,
  8197, 8230, 8261, 8294, 8325, 8358, 8389, 8422, 8453, 8486, 8517, 8550,
  8581, 8614, 8645, 8678, 8709, 8742, 8773, 8806, 8837, 8870, 8901, 8934,
  8965, 8998, 9029, 9062, 9093, 9126, 9157, 9190, 9221, 9254, 9285, 9318,
  9349, 9382, 9413, 9446, 9477, 9510, 9541, 9574, 9605, 9638, 9669, 9702,
  9733, 9766, 9797, 9830, 9861, 9894, 9925, 9958, 10021, 10054, 10085, 10118,
  10149, 10182, 10213, 10246, 10277, 10310, 10341, 10374, 10405, 10438, 10469, 10502,
  10565, 10598, 10629, 10662, 10693, 10726, 10757, 10790, 10821, 10854, 10885, 10918,
  10949, 10982, 11013, 11046, 11077, 11110, 11141, 11174, 11205, 11238, 11269, 11302,
  11333, 11366, 11397, 11430, 11461, 11494, 11525, 11558, 11589, 11622, 11653, 11686,
  11717, 11750, 11781, 11814, 11845, 11878, 11909, 11942, 11973, 12006, 12037, 12102,
  12133, 12166, 12197, 12230, 12325, 12390, 12421, 12454, 12485, 12550, 12581, 12678,
  12741, 12870, 12901, 12966, 12997, 13094, 13189, 13254, 13285, 13350, 13381, 13414,
  13445, 13478, 13509, 13574, 13605, 13638, 13701, 13734, 13765, 13830, 13861, 13958,
  13989, 14022, 14053, 14118, 14185, 14213, 14246, 14345, 14469, 14503, 14534, 14565,
  14599, 14630, 14661, 14695, 14726, 14757, 14790, 14821, 14854, 14885, 14918, 14949,
  14982, 15013, 15046, 15077, 15110, 15141, 15174, 15205, 15238, 15301, 15334, 15365,
  15398, 15429, 15462, 15493, 15526, 15557, 15590, 15621, 15654, 15685, 15718, 15749,
  15782, 15813, 15846, 15909, 15943, 15974, 16005, 16038, 16069, 16166, 16197, 16230,
  16261, 16294, 16325, 16358, 16389, 16422, 16453, 16486, 16517, 16550, 16581, 16614,
  16645, 16678, 16709, 16742, 16773, 16806, 16837, 16870, 16901, 16934, 16965, 16998,
  17029, 17062, 17093, 17126, 17157, 17190, 17221, 17254, 17285, 17318, 17349, 17382,
  17413, 17446, 17477, 17510, 17541, 17574, 17605, 17638, 17669, 17702, 17733, 17766,
  17797, 17830, 17861, 17894, 17925, 17958, 17989, 18022, 18245, 18310, 18341, 18406,
  18469, 18502, 18533, 18662, 18693, 18726, 18757, 18790, 18821, 18854, 18885, 18918,
  21129, 21158, 22024, 22617, 22728, 23129, 23560, 23737, 23944, 23993, 24008, 24057,
  24586, 28165, 28198, 28229, 28262, 28296, 28345, 28357, 28390, 28416, 28488, 28518,
  28630, 28645, 28672, 28825, 28869, 28918, 28933, 29024, 29061, 29088, 29125, 29190,
  29221, 29760, 29797, 30086, 31205, 31238, 31301, 31398, 31493, 31526, 31557, 31590,
  31621, 31654, 31685, 31718
]

/-- Runs 400 to 799. -/
def categoryRuns2 : Array Nat := #[
  31749, 31782, 31813, 31846, 31877, 31910, 31941, 31974, 32005, 32038, 32069, 32102,
  32133, 32166, 32197, 32230, 32389, 32422, 32471, 32485, 32518, 32549, 32614, 32677,
  34310, 35845, 35878, 35909, 35942, 35973, 36006, 36037, 36070, 36101, 36134, 36165,
  36198, 36229, 36262, 36293, 36326, 36357, 36390, 36421, 36454, 36485, 36518, 36549,
  36582, 36613, 36646, 36677, 36710, 36741, 36774, 36805, 36838, 36869, 36902, 36954,
  36970, 37132, 37189, 37222, 37253, 37286, 37317, 37350, 37381, 37414, 37445, 37478,
  37509, 37542, 37573, 37606, 37637, 37670, 37701, 37734, 37765, 37798, 37829, 37862,
  37893, 37926, 37957, 37990, 38021, 38054, 38085, 38118, 38149, 38182, 38213, 38246,
  38277, 38310, 38341, 38374, 38405, 38438, 38469, 38502, 38533, 38566, 38597, 38630,
  38661, 38694, 38725, 38758, 38789, 38822, 38853, 38886, 38917, 38982, 39013, 39046,
  39077, 39110, 39141, 39174, 39205, 39238, 39269, 39302, 39333, 39366, 39429, 39462,
  39493, 39526, 39557, 39590, 39621, 39654, 39685, 39718, 39749, 39782, 39813, 39846,
  39877, 39910, 39941, 39974, 40005, 40038, 40069, 40102, 40133, 40166, 40197, 40230,
  40261, 40294, 40325, 40358, 40389, 40422, 40453, 40486, 40517, 40550, 40581, 40614,
  40645, 40678, 40709, 40742, 40773, 40806, 40837, 40870, 40901, 40934, 40965, 40998,
  41029, 41062, 41093, 41126, 41157, 41190, 41221, 41254, 41285, 41318, 41349, 41382,
  41413, 41446, 41477, 41510, 41541, 41574, 41605, 41638, 41669, 41702, 41733, 41766,
  41797, 41830, 41861, 41894, 41925, 41958, 41989, 42022, 42053, 42086, 42117, 42150,
  42181, 42214, 42245, 42278, 42309, 42342, 42373, 42406, 42437, 42470, 42496, 42533,
  43744, 43816, 43862, 44038, 45366, 45393, 45408, 45498, 45560, 45568, 45610, 47057,
  47082, 47126, 47146, 47222, 47242, 47318, 47338, 47360, 47625, 48480, 48617, 48758,
  48800, 49154, 49367, 49462, 49528, 49558, 49626, 49674, 50038, 50050, 50102, 50185,
  51208, 51241, 51562, 52237, 52566, 52681, 52746, 52777, 55958, 55977, 56010, 56226,
  56282, 56298, 56488, 56554, 56634, 56650, 56777, 56845, 57161, 57274, 57321, 57366,
  57792, 57826, 57865, 57898, 57929, 58890, 59744, 59817, 62666, 63017, 63040, 63501,
  63817, 64874, 65160, 65242, 65270, 65352, 65376, 65450, 65496, 65545, 66250, 66376,
  66410, 66696, 66730, 66824, 66858, 67008, 67094, 67552, 67593, 68394, 68480, 68566,
  68576, 68617, 68960, 69129, 69913, 69929, 70112, 70146, 70208, 70410, 70665, 71976,
  72010, 72770, 72810, 73835, 73865, 75594, 75627, 75658, 75689, 75723, 75818, 76075,
  76202, 76235, 76297, 76330, 76553, 76874, 76950, 77005, 77334, 77352, 77385, 77866,
  77899, 77952, 77993, 78240, 78313, 78368, 78441, 79136, 79177, 79392, 79433, 79456,
  79561, 79680, 79754, 79785, 79819, 79914, 80032, 80107, 80160, 80235, 80298, 80329,
  80352, 80619, 80640, 80777, 80832, 80873, 80970, 81024, 81101, 81417, 81496, 81551,
  81754, 81784, 81801, 81846
]

/-- Runs 800 to 1199. -/
def categoryRuns3 : Array Nat := #[
  81866, 81888, 81962, 82027, 82048, 82089, 82272, 82409, 82464, 82537, 83232, 83273,
  83488, 83529, 83584, 83625, 83680, 83721, 83776, 83850, 83872, 83915, 84010, 84064,
  84202, 84256, 84330, 84416, 84522, 84544, 84777, 84896, 84937, 84960, 85197, 85514,
  85577, 85674, 85718, 85728, 86058, 86123, 86144, 86185, 86464, 86505, 86592, 86633,
  87328, 87369, 87584, 87625, 87680, 87721, 87872, 87946, 87977, 88011, 88106, 88256,
  88298, 88363, 88384, 88427, 88490, 88512, 88585, 88608, 89097, 89162, 89216, 89293,
  89622, 89656, 89664, 89897, 89930, 90112, 90154, 90187, 90240, 90281, 90528, 90601,
  90656, 90729, 91424, 91465, 91680, 91721, 91776, 91817, 91968, 92042, 92073, 92107,
  92138, 92171, 92202, 92320, 92395, 92448, 92523, 92586, 92608, 92842, 92907, 92928,
  93065, 93120, 93161, 93258, 93312, 93389, 93722, 93737, 93775, 93952, 94282, 94313,
  94336, 94377, 94560, 94665, 94752, 94793, 94912, 95017, 95072, 95113, 95136, 95177,
  95232, 95337, 95392, 95497, 95584, 95689, 96064, 96203, 96266, 96299, 96352, 96459,
  96544, 96587, 96682, 96704, 96777, 96800, 97003, 97024, 97485, 97807, 97914, 98104,
  98138, 98144, 98314, 98347, 98442, 98473, 98720, 98761, 98848, 98889, 99616, 99657,
  100160, 100234, 100265, 100298, 100395, 100512, 100554, 100640, 100682, 100800, 101034, 101088,
  101129, 101216, 101289, 101312, 101385, 101450, 101504, 101581, 101888, 102134, 102159, 102394,
  102409, 102442, 102475, 102550, 102569, 102816, 102857, 102944, 102985, 103712, 103753, 104064,
  104105, 104256, 104330, 104361, 104395, 104426, 104459, 104608, 104650, 104683, 104736, 104779,
  104842, 104896, 105131, 105184, 105385, 105440, 105481, 105546, 105600, 105677, 105984, 106025,
  106080, 106506, 106571, 106633, 106912, 106953, 107040, 107081, 108394, 108457, 108491, 108586,
  108704, 108747, 108832, 108875, 108970, 109001, 109050, 109056, 109193, 109291, 109327, 109545,
  109642, 109696, 109773, 110095, 110394, 110409, 110592, 110634, 110667, 110720, 110761, 111328,
  111433, 112192, 112233, 112512, 112553, 112576, 112649, 112864, 112970, 112992, 113131, 113226,
  113312, 113354, 113376, 113419, 113664, 113869, 114176, 114251, 114326, 114336, 114729, 116266,
  116297, 116362, 116576, 116728, 116745, 116936, 116970, 117238, 117261, 117590, 117632, 118825,
  118880, 118921, 118944, 118985, 119136, 119177, 119936, 119977, 120000, 120041, 120362, 120393,
  120458, 120745, 120768, 120841, 120992, 121032, 121056, 121098, 121280, 121357, 121664, 121737,
  121856, 122889, 122938, 123030, 123514, 123542, 123578, 123658, 123738, 123917, 124239, 124570,
  124586, 124634, 124650, 124698, 124714, 124754, 124787, 124818, 124851, 124875, 124937, 125184,
  125225, 126368, 126506, 126955, 126986, 127158, 127178, 127241, 127402, 127744, 127786, 128928,
  128986, 129226, 129274, 129440, 129498, 129558, 129722, 129846, 129888, 131081, 132459, 132522,
  132651, 132682, 132875, 132906, 132971, 133034, 133097, 133133, 133462, 133641, 133835, 133898,
  133961, 134090, 134185, 134219, 134313, 134379, 134601, 134698, 134825, 135242, 135275, 135338,
  135403, 135594, 135625, 135659
]

/-- Runs 1200 to 1599. -/
def categoryRuns4 : Array Nat := #[
  135693, 136011, 136106, 136154, 136197, 137408, 137445, 137472, 137637, 137664, 137734, 139126,
  139144, 139174, 139273, 149792, 149833, 149952, 150025, 150240, 150281, 150304, 150345, 150464,
  150537, 151840, 151881, 152000, 152073, 153120, 153161, 153280, 153353, 153568, 153609, 153632,
  153673, 153792, 153865, 154336, 154377, 156192, 156233, 156352, 156425, 158560, 158634, 158742,
  159023, 159648, 159753, 160282, 160576, 160773, 163520, 163590, 163776, 163857, 163881, 183738,
  183766, 183785, 184347, 184361, 185202, 185235, 185248, 185353, 187766, 187854, 187945, 188192,
  188425, 189002, 189099, 189120, 189417, 190026, 190091, 190134, 190176, 190473, 191050, 191104,
  191497, 191904, 191945, 192032, 192074, 192128, 192521, 194186, 194251, 194282, 194507, 194762,
  194795, 194858, 195222, 195304, 195350, 195448, 195465, 195498, 195520, 195597, 195904, 196111,
  196416, 196630, 196817, 196854, 196970, 197058, 197098, 197133, 197440, 197641, 198760, 198793,
  200480, 200713, 200874, 200937, 202026, 202057, 202080, 202249, 204480, 204809, 205792, 205834,
  205931, 206058, 206123, 206208, 206347, 206410, 206443, 206634, 206720, 206874, 206880, 206998,
  207053, 207369, 208320, 208393, 208544, 208905, 210304, 210441, 211264, 211469, 211791, 211808,
  211930, 213001, 213738, 213803, 213866, 213888, 213974, 214025, 215723, 215754, 215787, 215818,
  216032, 216074, 216107, 216138, 216171, 216234, 216491, 216682, 216992, 217066, 217101, 217408,
  217613, 217920, 218134, 218344, 218390, 218560, 218634, 219084, 219114, 219616, 221194, 221323,
  221353, 222858, 222891, 222922, 223083, 223114, 223147, 223306, 223339, 223401, 223648, 223757,
  224086, 224314, 224618, 224922, 225206, 225248, 225290, 225355, 225385, 226347, 226378, 226507,
  226570, 226635, 226666, 226761, 226829, 227145, 228554, 228587, 228618, 228683, 228778, 228811,
  228842, 228939, 228992, 229270, 229385, 230539, 230794, 231051, 231114, 231168, 231286, 231437,
  231744, 231849, 231949, 232265, 233224, 233430, 233478, 233760, 233989, 235360, 235429, 235542,
  235776, 236042, 236150, 236170, 236587, 236618, 236841, 236970, 237001, 237194, 237225, 237291,
  237322, 237385, 237408, 237574, 238984, 240998, 241416, 241446, 242536, 243722, 245765, 245798,
  245829, 245862, 245893, 245926, 245957, 245990, 246021, 246054, 246085, 246118, 246149, 246182,
  246213, 246246, 246277, 246310, 246341, 246374, 246405, 246438, 246469, 246502, 246533, 246566,
  246597, 246630, 246661, 246694, 246725, 246758, 246789, 246822, 246853, 246886, 246917, 246950,
  246981, 247014, 247045, 247078, 247109, 247142, 247173, 247206, 247237, 247270, 247301, 247334,
  247365, 247398, 247429, 247462, 247493, 247526, 247557, 247590, 247621, 247654, 247685, 247718,
  247749, 247782, 247813, 247846, 247877, 247910, 247941, 247974, 248005, 248038, 248069, 248102,
  248133, 248166, 248197, 248230, 248261, 248294, 248325, 248358, 248389, 248422, 248453, 248486,
  248517, 248550, 248581, 248614, 248645, 248678, 248709, 248742, 248773, 248806, 248837, 248870,
  248901, 248934, 248965, 248998, 249029, 249062, 249093, 249126, 249157, 249190, 249221, 249254,
  249285, 249318, 249349, 249382, 249413, 249446, 249477, 249510, 249541, 249574, 249605, 249638,
  249669, 249702, 249733, 249766
]

/-- Runs 1600 to 1999. -/
def categoryRuns5 : Array Nat := #[
  249797, 249830, 249861, 249894, 249925, 249958, 249989, 250022, 250053, 250086, 250117, 250150,
  250181, 250214, 250245, 250278, 250309, 250342, 250373, 250406, 250437, 250470, 250501, 250534,
  250821, 250854, 250885, 250918, 250949, 250982, 251013, 251046, 251077, 251110, 251141, 251174,
  251205, 251238, 251269, 251302, 251333, 251366, 251397, 251430, 251461, 251494, 251525, 251558,
  251589, 251622, 251653, 251686, 251717, 251750, 251781, 251814, 251845, 251878, 251909, 251942,
  251973, 252006, 252037, 252070, 252101, 252134, 252165, 252198, 252229, 252262, 252293, 252326,
  252357, 252390, 252421, 252454, 252485, 252518, 252549, 252582, 252613, 252646, 252677, 252710,
  252741, 252774, 252805, 252838, 252869, 252902, 252933, 252966, 252997, 253030, 253061, 253094,
  253125, 253158, 253189, 253222, 253253, 253286, 253317, 253350, 253381, 253414, 253445, 253478,
  253509, 253542, 253573, 253606, 253637, 253670, 253701, 253734, 253765, 253798, 253829, 253862,
  253893, 253926, 254213, 254470, 254656, 254725, 254912, 254982, 255237, 255494, 255749, 256006,
  256192, 256261, 256448, 256518, 256768, 256805, 256832, 256869, 256896, 256933, 256960, 256997,
  257030, 257285, 257542, 257984, 258054, 258311, 258566, 258823, 259078, 259335, 259590, 259744,
  259782, 259845, 259975, 260025, 260038, 260089, 260166, 260256, 260294, 260357, 260487, 260537,
  260614, 260736, 260806, 260869, 260992, 261049, 261126, 261381, 261561, 261632, 261702, 261792,
  261830, 261893, 262023, 262073, 262112, 262171, 262498, 262673, 262870, 262932, 262965, 262994,
  263028, 263093, 263122, 263156, 263190, 263452, 263485, 263490, 263675, 263702, 263988, 264021,
  264054, 264176, 264246, 264343, 264370, 264403, 264438, 264791, 264822, 264848, 264886, 265211,
  265218, 265376, 265410, 265743, 265768, 265792, 265871, 266071, 266162, 266195, 266216, 266255,
  266583, 266674, 266707, 266720, 266760, 267168, 267288, 268320, 268810, 269228, 269354, 269388,
  269482, 269856, 270362, 270405, 270458, 270565, 270618, 270662, 270693, 270790, 270853, 270950,
  271002, 271013, 271066, 271127, 271141, 271322, 271493, 271546, 271557, 271610, 271621, 271674,
  271685, 271834, 271846, 271877, 272006, 272041, 272166, 272218, 272262, 272325, 272407, 272549,
  272582, 272730, 272759, 272794, 272838, 272890, 272911, 273422, 274533, 274566, 274606, 274735,
  274778, 274816, 274967, 275130, 275287, 275354, 275479, 275514, 275575, 275610, 275671, 275706,
  275927, 275962, 276951, 277018, 277079, 277114, 277143, 277178, 278167, 286746, 286994, 287027,
  287058, 287091, 287130, 287767, 287834, 288050, 288083, 288122, 290711, 290746, 291703, 292506,
  293783, 293978, 296160, 296986, 297312, 297999, 299930, 302415, 303130, 308983, 309018, 309303,
  309338, 311063, 311322, 314871, 314906, 322834, 322867, 322898, 322931, 322962, 322995, 323026,
  323059, 323090, 323123, 323154, 323187, 323218, 323251, 323279, 324250, 325655, 325810, 325843,
  325879, 326866, 326899, 326930, 326963, 326994, 327027, 327058, 327091, 327122, 327155, 327191,
  327706, 335895, 340082, 340115, 340146, 340179, 340210, 340243, 340274, 340307, 340338, 340371,
  340402, 340435, 340466, 340499, 340530, 340563, 340594, 340627, 340658, 340691, 340722, 340755,
  340791, 342802, 342835, 342866
]

/-- Runs 2000 to 2399. -/
def categoryRuns6 : Array Nat := #[
  342899, 342935, 343954, 343987, 344023, 352282, 353815, 354490, 354551, 354746, 355968, 356058,
  357056, 357114, 360453, 361990, 363525, 363558, 363589, 363686, 363749, 363782, 363813, 363846,
  363877, 363910, 363941, 364070, 364101, 364134, 364197, 364230, 364424, 364485, 364582, 364613,
  364646, 364677, 364710, 364741, 364774, 364805, 364838, 364869, 364902, 364933, 364966, 364997,
  365030, 365061, 365094, 365125, 365158, 365189, 365222, 365253, 365286, 365317, 365350, 365381,
  365414, 365445, 365478, 365509, 365542, 365573, 365606, 365637, 365670, 365701, 365734, 365765,
  365798, 365829, 365862, 365893, 365926, 365957, 365990, 366021, 366054, 366085, 366118, 366149,
  366182, 366213, 366246, 366277, 366310, 366341, 366374, 366405, 366438, 366469, 366502, 366533,
  366566, 366597, 366630, 366661, 366694, 366725, 366758, 366789, 366822, 366853, 366886, 366917,
  366950, 366981, 367014, 367045, 367078, 367109, 367142, 367173, 367206, 367237, 367270, 367301,
  367334, 367365, 367398, 367429, 367462, 367493, 367526, 367557, 367590, 367621, 367654, 367685,
  367718, 367802, 367973, 368006, 368037, 368070, 368106, 368197, 368230, 368256, 368438, 368559,
  368598, 368646, 369856, 369894, 369920, 370086, 370112, 370185, 371968, 372200, 372246, 372256,
  372714, 372745, 373472, 373769, 373984, 374025, 374240, 374281, 374496, 374537, 374752, 374793,
  375008, 375049, 375264, 375305, 375520, 375561, 375776, 375818, 376854, 376916, 376949, 376980,
  377013, 377046, 377140, 377173, 377206, 377236, 377269, 377302, 377585, 377622, 377681, 377718,
  377748, 377781, 377814, 377876, 377909, 377938, 377971, 378002, 378035, 378066, 378099, 378130,
  378163, 378198, 378344, 378390, 378705, 378774, 378897, 378934, 378962, 378998, 379418, 379478,
  379570, 379603, 379634, 379667, 379698, 379731, 379762, 379795, 379825, 379840, 380954, 381760,
  381818, 384640, 385050, 391872, 392730, 393088, 393243, 393270, 393370, 393384, 393417, 393454,
  393490, 393523, 393554, 393587, 393618, 393651, 393682, 393715, 393746, 393779, 393818, 393874,
  393907, 393938, 393971, 394002, 394035, 394066, 394099, 394129, 394162, 394195, 394266, 394286,
  394570, 394699, 394769, 394792, 394970, 395022, 395112, 395145, 395190, 395226, 395264, 395305,
  398048, 398122, 398201, 398248, 398313, 398353, 398377, 401270, 401288, 401385, 401408, 401577,
  402944, 402985, 405984, 406042, 406095, 406234, 406537, 407578, 408704, 409097, 409626, 410592,
  410639, 410970, 411919, 412186, 412207, 412698, 413711, 414042, 415279, 415770, 425993, 636954,
  638985, 1311400, 1311433, 1348000, 1348122, 1349856, 1350153, 1351432, 1351638, 1351689, 1360264, 1360310,
  1360393, 1360909, 1361225, 1361280, 1361925, 1361958, 1361989, 1362022, 1362053, 1362086, 1362117, 1362150,
  1362181, 1362214, 1362245, 1362278, 1362309, 1362342, 1362373, 1362406, 1362437, 1362470, 1362501, 1362534,
  1362565, 1362598, 1362629, 1362662, 1362693, 1362726, 1362757, 1362790, 1362821, 1362854, 1362885, 1362918,
  1362949, 1362982, 1363013, 1363046, 1363077, 1363110, 1363141, 1363174, 1363205, 1363238, 1363269, 1363302,
  1363333, 1363366, 1363401, 1363434, 1363468, 1363574, 1363594, 1363926, 1363944, 1363973, 1364006, 1364037,
  1364070, 1364101, 1364134, 1364165, 1364198, 1364229, 1364262, 1364293, 1364326, 1364357, 1364390, 1364421,
  1364454, 1364485, 1364518, 1364549
]

/-- Runs 2400 to 2799. -/
def categoryRuns7 : Array Nat := #[
  1364582, 1364613, 1364646, 1364677, 1364710, 1364741, 1364774, 1364805, 1364838, 1364872, 1364938, 1365001,
  1367246, 1367562, 1367638, 1367808, 1368089, 1368808, 1369113, 1369157, 1369190, 1369221, 1369254, 1369285,
  1369318, 1369349, 1369382, 1369413, 1369446, 1369477, 1369510, 1369541, 1369574, 1369669, 1369702, 1369733,
  1369766, 1369797, 1369830, 1369861, 1369894, 1369925, 1369958, 1369989, 1370022, 1370053, 1370086, 1370117,
  1370150, 1370181, 1370214, 1370245, 1370278, 1370309, 1370342, 1370373, 1370406, 1370437, 1370470, 1370501,
  1370534, 1370565, 1370598, 1370629, 1370662, 1370693, 1370726, 1370757, 1370790, 1370821, 1370854, 1370885,
  1370918, 1370949, 1370982, 1371013, 1371046, 1371077, 1371110, 1371141, 1371174, 1371205, 1371238, 1371269,
  1371302, 1371333, 1371366, 1371397, 1371430, 1371461, 1371494, 1371525, 1371558, 1371589, 1371622, 1371656,
  1371686, 1371941, 1371974, 1372005, 1372038, 1372069, 1372134, 1372165, 1372198, 1372229, 1372262, 1372293,
  1372326, 1372357, 1372390, 1372424, 1372473, 1372517, 1372550, 1372581, 1372614, 1372649, 1372677, 1372710,
  1372741, 1372774, 1372869, 1372902, 1372933, 1372966, 1372997, 1373030, 1373061, 1373094, 1373125, 1373158,
  1373189, 1373222, 1373253, 1373286, 1373317, 1373350, 1373381, 1373414, 1373445, 1373478, 1373509, 1373670,
  1373701, 1373862, 1373893, 1373926, 1373957, 1373990, 1374021, 1374054, 1374085, 1374118, 1374149, 1374182,
  1374213, 1374246, 1374277, 1374310, 1374341, 1374470, 1374501, 1374534, 1374560, 1374725, 1374758, 1374784,
  1374822, 1374848, 1374886, 1374917, 1374950, 1374981, 1375014, 1375040, 1375816, 1375909, 1375942, 1375977,
  1376008, 1376070, 1376105, 1376330, 1376361, 1376458, 1376489, 1376618, 1376649, 1377387, 1377450, 1377515,
  1377562, 1377674, 1377696, 1377807, 1378010, 1378072, 1378106, 1378112, 1378313, 1379990, 1380096, 1380363,
  1380425, 1382027, 1382538, 1382592, 1382870, 1382925, 1383232, 1383434, 1384009, 1384214, 1384297, 1384342,
  1384361, 1384426, 1384461, 1384777, 1385674, 1385942, 1385993, 1386730, 1387083, 1387136, 1387510, 1387529,
  1388448, 1388554, 1388651, 1388681, 1390186, 1390219, 1390282, 1390411, 1390474, 1390539, 1390646, 1391040,
  1391080, 1391117, 1391424, 1391574, 1391625, 1391786, 1391816, 1391849, 1392141, 1392457, 1392608, 1392649,
  1393962, 1394155, 1394218, 1394283, 1394346, 1394400, 1394697, 1394794, 1394825, 1395082, 1395115, 1395136,
  1395213, 1395520, 1395606, 1395721, 1396232, 1396265, 1396474, 1396553, 1396587, 1396618, 1396651, 1396681,
  1398282, 1398313, 1398346, 1398441, 1398506, 1398569, 1398730, 1398793, 1398826, 1398857, 1398880, 1399657,
  1399720, 1399766, 1399817, 1400171, 1400202, 1400267, 1400342, 1400393, 1400424, 1400491, 1400522, 1400544,
  1400873, 1401056, 1401129, 1401312, 1401385, 1401568, 1401865, 1402080, 1402121, 1402336, 1402374, 1403769,
  1403784, 1403910, 1404200, 1404249, 1404288, 1404422, 1406985, 1408107, 1408170, 1408203, 1408266, 1408299,
  1408374, 1408395, 1408426, 1408448, 1408525, 1408832, 1409033, 1766528, 1766921, 1767648, 1767785, 1769344,
  1769475, 1835012, 2039817, 2051520, 2051593, 2054976, 2056198, 2056416, 2056806, 2056960, 2057129, 2057162,
  2057193, 2057527, 2057545, 2057952, 2057993, 2058144, 2058185, 2058208, 2058249, 2058304, 2058345, 2058400,
  2058441, 2061913, 2062432, 2062953, 2074579, 2074610, 2074650, 2075145, 2077184, 2077257, 2078976, 2079226,
  2079232, 2080265, 2080664, 2080698, 2080778, 2081302, 2081522, 2081555, 2081590, 2081600, 2081802, 2082326,
  2082353, 2082416, 2082482, 2082515, 2082546, 2082579, 2082610, 2082643, 2082674, 2082707, 2082738, 2082771,
  2082802, 2082835, 2082866, 2082899
]

/-- Runs 2800 to 3199. -/
def categoryRuns8 : Array Nat := #[
  2082930, 2082963, 2082998, 2083058, 2083091, 2083126, 2083248, 2083350, 2083424, 2083478, 2083601, 2083634,
  2083667, 2083698, 2083731, 2083762, 2083795, 2083830, 2083927, 2083953, 2083991, 2084064, 2084118, 2084152,
  2084182, 2084224, 2084361, 2084512, 2084553, 2088864, 2088930, 2088960, 2089014, 2089112, 2089142, 2089234,
  2089267, 2089302, 2089335, 2089366, 2089393, 2089430, 2089485, 2089814, 2089879, 2089974, 2090021, 2090866,
  2090902, 2090931, 2090969, 2090992, 2091033, 2091046, 2091890, 2091927, 2091955, 2091991, 2092018, 2092051,
  2092086, 2092114, 2092147, 2092182, 2092233, 2092552, 2092585, 2094024, 2094089, 2095072, 2095177, 2095360,
  2095433, 2095616, 2095689, 2095872, 2095945, 2096032, 2096152, 2096215, 2096249, 2096282, 2096312, 2096352,
  2096410, 2096439, 2096570, 2096608, 2096930, 2097050, 2097088, 2097161, 2097536, 2097577, 2098400, 2098441,
  2099040, 2099081, 2099136, 2099177, 2099648, 2099721, 2100160, 2101257, 2105184, 2105366, 2105440, 2105583,
  2107008, 2107130, 2107406, 2109103, 2109242, 2109775, 2109850, 2109920, 2109978, 2110368, 2110490, 2110496,
  2112026, 2113450, 2113472, 2117641, 2118560, 2118665, 2120224, 2120714, 2120751, 2121600, 2121737, 2122767,
  2122880, 2123177, 2123822, 2123849, 2124110, 2124128, 2124297, 2125514, 2125664, 2125833, 2126784, 2126838,
  2126857, 2128000, 2128137, 2128406, 2128430, 2128576, 2129925, 2131206, 2132489, 2134976, 2135053, 2135360,
  2135557, 2136704, 2136838, 2137984, 2138121, 2139392, 2139657, 2141312, 2141686, 2141701, 2142048, 2142085,
  2142560, 2142597, 2142816, 2142853, 2142912, 2142950, 2143296, 2143334, 2143808, 2143846, 2144064, 2144102,
  2144160, 2146313, 2156256, 2156553, 2157248, 2157577, 2157824, 2158600, 2158784, 2158824, 2160160, 2160200,
  2160480, 2162697, 2162880, 2162953, 2162976, 2163017, 2164416, 2164457, 2164512, 2164617, 2164640, 2164713,
  2165440, 2165494, 2165519, 2165769, 2166522, 2166575, 2166793, 2167776, 2168047, 2168320, 2169865, 2170464,
  2170505, 2170560, 2170735, 2170889, 2171599, 2171776, 2171894, 2171913, 2172736, 2172918, 2172928, 2174985,
  2176768, 2176911, 2176969, 2177039, 2177536, 2177615, 2179081, 2179114, 2179200, 2179242, 2179296, 2179466,
  2179593, 2179712, 2179753, 2179840, 2179881, 2180800, 2180874, 2180960, 2181098, 2181135, 2181408, 2181654,
  2181920, 2182153, 2183087, 2183158, 2183177, 2184111, 2184192, 2185225, 2185498, 2185513, 2186410, 2186464,
  2186607, 2186774, 2186976, 2187273, 2188992, 2189110, 2189321, 2190016, 2190095, 2190345, 2190944, 2191119,
  2191369, 2191936, 2192182, 2192288, 2192687, 2192896, 2195465, 2197792, 2199557, 2201184, 2201606, 2203232,
  2203471, 2203657, 2204810, 2204928, 2205197, 2205504, 2214927, 2215904, 2215945, 2217280, 2217322, 2217393,
  2217408, 2217481, 2217536, 2220041, 2220975, 2221289, 2221312, 2221577, 2222282, 2222639, 2222774, 2222912,
  2223625, 2224202, 2224342, 2224448, 2225673, 2226351, 2226560, 2227209, 2227936, 2228235, 2228266, 2228299,
  2228329, 2230026, 2230518, 2230720, 2230863, 2231501, 2231818, 2231849, 2231914, 2231977, 2232000, 2232298,
  2232395, 2232425, 2233867, 2233962, 2234091, 2234154, 2234230, 2234274, 2234326, 2234442, 2234464, 2234786,
  2234816, 2234889, 2235680, 2235917, 2236224, 2236426, 2236521, 2237674, 2237835, 2237866, 2238112, 2238157,
  2238486, 2238601, 2238635, 2238697, 2238720, 2238985, 2240106, 2240150, 2240201, 2240224, 2240522, 2240587,
  2240617, 2242155, 2242250, 2242539, 2242601, 2242742, 2242858, 2242998, 2243019, 2243050, 2243085, 2243401,
  2243446, 2243465, 2243510, 2243584, 2243631, 2244256, 2244617, 2245184, 2245225, 2246027, 2246122, 2246219,
  2246282, 2246315, 2246346, 2246422
]

/-- Runs 3200 to 3599. -/
def categoryRuns9 : Array Nat := #[
  2246602, 2246624, 2248713, 2248928, 2248969, 2248992, 2249033, 2249152, 2249193, 2249664, 2249705, 2250038,
  2250048, 2250249, 2251754, 2251787, 2251882, 2252128, 2252301, 2252608, 2252810, 2252875, 2252928, 2252969,
  2253216, 2253289, 2253344, 2253417, 2254112, 2254153, 2254368, 2254409, 2254464, 2254505, 2254656, 2254698,
  2254761, 2254795, 2254858, 2254891, 2255008, 2255083, 2255136, 2255211, 2255296, 2255369, 2255392, 2255595,
  2255616, 2255785, 2255947, 2256000, 2256074, 2256288, 2256394, 2256544, 2261001, 2262699, 2262794, 2263051,
  2263114, 2263211, 2263242, 2263273, 2263414, 2263565, 2263894, 2263936, 2263990, 2264010, 2264041, 2264128,
  2265097, 2266635, 2266730, 2266923, 2266954, 2266987, 2267114, 2267179, 2267210, 2267273, 2267350, 2267369,
  2267392, 2267661, 2267968, 2273289, 2274795, 2274890, 2275008, 2275083, 2275210, 2275275, 2275306, 2275382,
  2276105, 2276234, 2276288, 2277385, 2278923, 2279018, 2279275, 2279338, 2279371, 2279402, 2279478, 2279561,
  2279584, 2279949, 2280256, 2280470, 2280864, 2281481, 2282858, 2282891, 2282922, 2282955, 2283018, 2283211,
  2283242, 2283273, 2283318, 2283328, 2283533, 2283840, 2285577, 2286432, 2286506, 2286603, 2286666, 2286795,
  2286826, 2286976, 2287117, 2287439, 2287510, 2287610, 2287625, 2287840, 2293769, 2295179, 2295274, 2295563,
  2295594, 2295670, 2295680, 2298885, 2299910, 2300941, 2301263, 2301536, 2301929, 2302176, 2302249, 2302272,
  2302345, 2302592, 2302633, 2302688, 2302729, 2303499, 2303680, 2303723, 2303776, 2303850, 2303915, 2303946,
  2303977, 2304011, 2304041, 2304075, 2304106, 2304150, 2304224, 2304525, 2304832, 2307081, 2307328, 2307401,
  2308651, 2308746, 2308864, 2308938, 2309003, 2309130, 2309161, 2309206, 2309225, 2309259, 2309280, 2310153,
  2310186, 2310505, 2311786, 2311979, 2312009, 2312042, 2312182, 2312426, 2312448, 2312713, 2312746, 2312939,
  2313002, 2313097, 2314570, 2314987, 2315018, 2315094, 2315177, 2315222, 2315360, 2315785, 2318112, 2326537,
  2326816, 2326857, 2328043, 2328074, 2328288, 2328330, 2328523, 2328554, 2328585, 2328630, 2328768, 2329101,
  2329423, 2330016, 2330134, 2330185, 2331136, 2331210, 2331904, 2331947, 2331978, 2332203, 2332234, 2332299,
  2332330, 2332384, 2334729, 2334944, 2334985, 2335040, 2335081, 2336298, 2336480, 2336586, 2336608, 2336650,
  2336704, 2336746, 2336969, 2337002, 2337024, 2337293, 2337600, 2337801, 2337984, 2338025, 2338080, 2338121,
  2339147, 2339296, 2339338, 2339392, 2339435, 2339498, 2339531, 2339562, 2339593, 2339616, 2339853, 2340160,
  2350089, 2350698, 2350763, 2350838, 2350880, 2356745, 2356768, 2357263, 2357946, 2358200, 2358330, 2358848,
  2359286, 2359305, 2388800, 2392078, 2395616, 2395670, 2395808, 2396169, 2402432, 2486793, 2489910, 2489952,
  2490377, 2524640, 2524674, 2524960, 2654217, 2672864, 2949129, 2967328, 2967561, 2968544, 2968589, 2968896,
  2969046, 2969097, 2971616, 2971661, 2971968, 2972169, 2973120, 2973194, 2973366, 2973376, 2973705, 2975242,
  2975478, 2975642, 2975752, 2975894, 2975930, 2975936, 2976269, 2976576, 2976623, 2976832, 2976873, 2977536,
  2977705, 2978304, 3000325, 3001350, 3002383, 3003126, 3003232, 3006473, 3008864, 3009002, 3009033, 3009067,
  3010816, 3011050, 3011176, 3011584, 3013640, 3013718, 3013736, 3013770, 3013792, 3014155, 3014208, 3014665,
  3211008, 3211273, 3250880, 3252233, 3252512, 3538440, 3538560, 3538600, 3538816, 3538856, 3538912, 3538953,
  3548256, 3549705, 3549792, 3550345, 3550464, 3550729, 3563392, 3637257, 3640672, 3640841, 3641248, 3641353,
  3641632, 3641865, 3642176, 3642266, 3642282, 3642358, 3642370, 3642496, 3792906, 3794368, 3794442, 3795168,
  3795482, 3799168, 3801114, 3808960
]

/-- Runs 3600 to 3967. -/
def categoryRuns10 : Array Nat := #[
  3809306, 3810528, 3810618, 3812523, 3812586, 3812698, 3812779, 3812962, 3813226, 3813498, 3813546, 3813786,
  3814730, 3814874, 3816800, 3817498, 3819594, 3819706, 3819712, 3824655, 3825280, 3825690, 3828448, 3828751,
  3829536, 3833861, 3834694, 3835525, 3836358, 3836576, 3836614, 3837189, 3838022, 3838853, 3838880, 3838917,
  3838976, 3839045, 3839072, 3839141, 3839200, 3839269, 3839392, 3839429, 3839686, 3839808, 3839846, 3839872,
  3839910, 3840128, 3840166, 3840517, 3841350, 3842181, 3842240, 3842277, 3842400, 3842469, 3842720, 3842757,
  3842976, 3843014, 3843845, 3843904, 3843941, 3844064, 3844101, 3844256, 3844293, 3844320, 3844421, 3844640,
  3844678, 3845509, 3846342, 3847173, 3848006, 3848837, 3849670, 3850501, 3851334, 3852165, 3852998, 3853829,
  3854662, 3855552, 3855621, 3856439, 3856454, 3857271, 3857286, 3857477, 3858295, 3858310, 3859127, 3859142,
  3859333, 3860151, 3860166, 3860983, 3860998, 3861189, 3862007, 3862022, 3862839, 3862854, 3863045, 3863863,
  3863878, 3864695, 3864710, 3864901, 3864934, 3864960, 3865037, 3866650, 3883018, 3884794, 3884906, 3886522,
  3886762, 3886810, 3887242, 3887290, 3887350, 3887488, 3887978, 3888128, 3888170, 3888640, 3923974, 3924297,
  3924326, 3924960, 3932170, 3932384, 3932426, 3932960, 3933034, 3933248, 3933290, 3933344, 3933386, 3933536,
  3940361, 3941792, 3941898, 3942120, 3942336, 3942413, 3942720, 3942857, 3942906, 3942912, 3953161, 3954122,
  3954144, 3954697, 3956106, 3956237, 3956544, 3956728, 3956736, 3996681, 3996896, 3996937, 3997056, 3997097,
  3997152, 3997193, 3997664, 3997705, 4004000, 4004079, 4004362, 4004576, 4005893, 4006982, 4008074, 4008296,
  4008320, 4008461, 4008768, 4008918, 4008960, 4034095, 4035994, 4036015, 4036120, 4036143, 4036256, 4038703,
  4040154, 4040175, 4040640, 4046857, 4046976, 4047017, 4047872, 4047913, 4047968, 4048009, 4048032, 4048105,
  4048128, 4048169, 4048480, 4048521, 4048640, 4048681, 4048704, 4048745, 4048768, 4048969, 4048992, 4049129,
  4049152, 4049193, 4049216, 4049257, 4049280, 4049321, 4049408, 4049449, 4049504, 4049545, 4049568, 4049641,
  4049664, 4049705, 4049728, 4049769, 4049792, 4049833, 4049856, 4049897, 4049920, 4049961, 4050016, 4050057,
  4050080, 4050153, 4050272, 4050313, 4050528, 4050569, 4050688, 4050729, 4050848, 4050889, 4050912, 4050953,
  4051264, 4051305, 4051840, 4052009, 4052096, 4052137, 4052288, 4052329, 4052864, 4054551, 4054592, 4063258,
  4064640, 4064794, 4067968, 4068378, 4068832, 4068922, 4069376, 4069434, 4069888, 4069946, 4071104, 4071439,
  4071866, 4076992, 4078810, 4079712, 4080154, 4081536, 4081690, 4081952, 4082202, 4082240, 4082714, 4082880,
  4087834, 4095865, 4096026, 4119296, 4119482, 4119968, 4120090, 4120480, 4120602, 4124288, 4124698, 4127520,
  4127770, 4128128, 4128282, 4128288, 4128794, 4129152, 4129306, 4131072, 4131354, 4131648, 4131866, 4133120,
  4133402, 4134336, 4134426, 4134464, 4136986, 4147840, 4148250, 4148672, 4148762, 4148896, 4149018, 4149152,
  4149274, 4149472, 4149786, 4150688, 4150810, 4151136, 4151322, 4151488, 4151834, 4152128, 4152346, 4152576,
  4152858, 4153056, 4153370, 4158048, 4158106, 4159840, 4161037, 4161344, 4194313, 5561344, 5562377, 5695264,
  5695497, 5702592, 5702665, 5887040, 5887497, 6126624, 6225929, 6243264, 6291465, 6449504, 29360162, 29360192,
  29361154, 29364224, 29368330, 29376000, 31457284, 33554368, 33554436, 35651520
]

/-- All runs, in ascending order. -/
def categoryRuns : Array Nat :=
  categoryRuns1 ++ categoryRuns2 ++ categoryRuns3 ++ categoryRuns4 ++ categoryRuns5 ++
    categoryRuns6 ++ categoryRuns7 ++ categoryRuns8 ++ categoryRuns9 ++ categoryRuns10

end LogWatch.Text.Unicode
