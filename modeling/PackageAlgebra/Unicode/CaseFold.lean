import PackageAlgebra.Unicode.CharClass

/-!
# Simple case folding

A run `start,count,stride,offset` says that each of the `count` characters from
`start` on, `stride` apart, has the character `offset` further on as a variant.
A class is closed under case by adding the variants of its members.
-/

namespace PackageAlgebra.Unicode

structure VariantRun where
  start : Nat
  count : Nat
  stride : Nat
  offset : Int

def VariantRun.ofText? (text : String) : Option VariantRun :=
  match text.splitOn "," with
  | [start, count, stride, offset] =>
    match start.toNat?, count.toNat?, stride.toNat?, offset.toInt? with
    | some start, some count, some stride, some offset => some { start, count, stride, offset }
    | _, _, _, _ => none
  | _ => none

def variantTable : List String :=
  ["65,26,1,32 75,1,1,8415 83,1,1,300 97,26,1,-32 107,1,1,8383 115,1,1,268 181,1,1,743",
    "181,1,1,775 192,23,1,32 197,1,1,8294 216,7,1,32 223,1,1,7615 224,23,1,-32 229,1,1,8262",
    "248,7,1,-32 255,1,1,121 256,24,2,1 257,24,2,-1 306,3,2,1 307,3,2,-1 313,8,2,1 314,8,2,-1",
    "330,23,2,1 331,23,2,-1 376,1,1,-121 377,3,2,1 378,3,2,-1 383,1,1,-300 383,1,1,-268",
    "384,1,1,195 385,1,1,210 386,2,2,1 387,2,2,-1 390,1,1,206 391,2,4,1 392,2,4,-1 393,2,1,205",
    "398,1,1,79 399,1,1,202 400,1,1,203 401,1,1,1 402,1,1,-1 403,1,1,205 404,1,1,207 405,1,1,97",
    "406,1,1,211 407,1,1,209 408,2,8,1 409,2,8,-1 410,1,1,163 411,1,1,42561 412,1,1,211",
    "413,1,1,213 414,1,1,130 415,1,1,214 418,2,2,1 419,2,2,-1 422,2,3,218 423,1,1,1 424,1,1,-1",
    "428,2,3,1 429,2,3,-1 430,1,1,218 433,2,1,217 435,2,2,1 436,2,2,-1 439,1,1,219 440,2,4,1",
    "441,2,4,-1 447,1,1,56 452,2,1,1 452,3,3,2 453,2,1,-1 454,3,3,-2 455,2,1,1 456,2,1,-1",
    "458,2,1,1 459,2,1,-1 461,8,2,1 462,8,2,-1 477,1,1,-79 478,9,2,1 479,9,2,-1 497,2,1,1",
    "497,1,1,2 498,2,1,-1 499,1,1,-2 500,2,4,1 501,2,4,-1 502,1,1,-97 503,1,1,-56 506,19,2,1",
    "507,19,2,-1 544,1,1,-130 546,9,2,1 547,9,2,-1 570,1,1,10795 571,1,1,1 572,1,1,-1",
    "573,1,1,-163 574,1,1,10792 575,2,1,10815 577,1,1,1 578,1,1,-1 579,1,1,-195 580,1,1,69",
    "581,1,1,71 582,5,2,1 583,5,2,-1 592,1,1,10783 593,1,1,10780 594,1,1,10782 595,1,1,-210",
    "596,1,1,-206 598,2,1,-205 601,1,1,-202 603,1,1,-203 604,1,1,42319 608,1,1,-205",
    "609,1,1,42315 611,1,1,-207 612,1,1,42343 613,1,1,42280 614,2,4,42308 616,1,1,-209",
    "617,1,1,-211 619,1,1,10743 620,1,1,42305 623,1,1,-211 625,1,1,10749 626,1,1,-213",
    "629,1,1,-214 637,1,1,10727 640,2,3,-218 642,1,1,42307 647,1,1,42282 648,1,1,-218",
    "649,1,1,-69 650,2,1,-217 652,1,1,-71 658,1,1,-219 669,1,1,42261 670,1,1,42258 837,1,1,84",
    "837,1,1,116 837,1,1,7289 880,2,2,1 881,2,2,-1 886,1,1,1 887,1,1,-1 891,3,1,130 895,1,1,116",
    "902,1,1,38 904,3,1,37 908,1,1,64 910,2,1,63 912,1,1,7235 913,17,1,32 914,1,1,62 917,1,1,96",
    "920,1,1,57 920,1,1,92 921,1,1,-84 921,1,1,7205 922,1,1,86 924,1,1,-743 928,1,1,54",
    "929,1,1,80 931,1,1,31 931,9,1,32 934,1,1,47 937,1,1,7549 940,1,1,-38 941,3,1,-37",
    "944,1,1,7219 945,17,1,-32 946,1,1,30 949,1,1,64 952,1,1,25 952,1,1,60 953,1,1,-116",
    "953,1,1,7173 954,1,1,54 956,1,1,-775 960,1,1,22 961,1,1,48 962,1,1,-31 962,1,1,1",
    "963,9,1,-32 963,1,1,-1 966,1,1,15 969,1,1,7517 972,1,1,-64 973,2,1,-63 975,1,1,8",
    "976,1,1,-62 976,1,1,-30 977,1,1,-57 977,1,1,-25 977,1,1,35 981,1,1,-47 981,1,1,-15",
    "982,1,1,-54 982,1,1,-22 983,1,1,-8 984,12,2,1 985,12,2,-1 1008,1,1,-86 1008,1,1,-54",
    "1009,1,1,-80 1009,1,1,-48 1010,1,1,7 1011,1,1,-116 1012,1,1,-92 1012,1,1,-60 1012,1,1,-35",
    "1013,1,1,-96 1013,1,1,-64 1015,2,3,1 1016,2,3,-1 1017,1,1,-7 1021,3,1,-130 1024,16,1,80",
    "1040,32,1,32 1042,1,1,6254 1044,1,1,6253 1054,1,1,6244 1057,2,1,6242 1058,1,1,6243",
    "1066,1,1,6236 1072,32,1,-32 1074,1,1,6222 1076,1,1,6221 1086,1,1,6212 1089,2,1,6210",
    "1090,1,1,6211 1098,1,1,6204 1104,16,1,-80 1120,17,2,1 1121,17,2,-1 1122,1,1,6181",
    "1123,1,1,6180 1162,27,2,1 1163,27,2,-1 1216,1,1,15 1217,7,2,1 1218,7,2,-1 1231,1,1,-15",
    "1232,48,2,1 1233,48,2,-1 1329,38,1,48 1377,38,1,-48 4256,38,1,7264 4295,1,1,7264",
    "4301,1,1,7264 4304,43,1,3008 4349,3,1,3008 5024,80,1,38864 5104,6,1,8 5112,6,1,-8",
    "7296,1,1,-6254 7296,1,1,-6222 7297,1,1,-6253 7297,1,1,-6221 7298,1,1,-6244 7298,1,1,-6212",
    "7299,2,1,-6242 7299,2,1,-6210 7300,1,1,1 7301,1,1,-6243 7301,1,1,-6211 7301,1,1,-1",
    "7302,1,1,-6236 7302,1,1,-6204 7303,1,1,-6181 7303,1,1,-6180 7304,1,1,35266 7304,1,1,35267",
    "7305,1,1,1 7306,1,1,-1 7312,43,1,-3008 7357,3,1,-3008 7545,1,1,35332 7549,1,1,3814",
    "7566,1,1,35384 7680,75,2,1 7681,75,2,-1 7776,1,1,59 7777,1,1,58 7835,1,1,-59 7835,1,1,-58",
    "7838,1,1,-7615 7840,48,2,1 7841,48,2,-1 7936,8,1,8 7944,8,1,-8 7952,6,1,8 7960,6,1,-8",
    "7968,8,1,8 7976,8,1,-8 7984,8,1,8 7992,8,1,-8 8000,6,1,8 8008,6,1,-8 8017,4,2,8",
    "8025,4,2,-8 8032,8,1,8 8040,8,1,-8 8048,2,1,74 8050,4,1,86 8054,2,1,100 8056,2,1,128",
    "8058,2,1,112 8060,2,1,126 8064,8,1,8 8072,8,1,-8 8080,8,1,8 8088,8,1,-8 8096,8,1,8",
    "8104,8,1,-8 8112,2,1,8 8115,1,1,9 8120,2,1,-8 8122,2,1,-74 8124,1,1,-9 8126,1,1,-7289",
    "8126,1,1,-7205 8126,1,1,-7173 8131,1,1,9 8136,4,1,-86 8140,1,1,-9 8144,2,1,8",
    "8147,1,1,-7235 8152,2,1,-8 8154,2,1,-100 8160,2,1,8 8163,1,1,-7219 8165,1,1,7 8168,2,1,-8",
    "8170,2,1,-112 8172,1,1,-7 8179,1,1,9 8184,2,1,-128 8186,2,1,-126 8188,1,1,-9",
    "8486,1,1,-7549 8486,1,1,-7517 8490,1,1,-8415 8490,1,1,-8383 8491,1,1,-8294 8491,1,1,-8262",
    "8498,1,1,28 8526,1,1,-28 8544,16,1,16 8560,16,1,-16 8579,1,1,1 8580,1,1,-1 9398,26,1,26",
    "9424,26,1,-26 11264,48,1,48 11312,48,1,-48 11360,1,1,1 11361,1,1,-1 11362,1,1,-10743",
    "11363,1,1,-3814 11364,1,1,-10727 11365,1,1,-10795 11366,1,1,-10792 11367,3,2,1",
    "11368,3,2,-1 11373,1,1,-10780 11374,1,1,-10749 11375,1,1,-10783 11376,1,1,-10782",
    "11378,2,3,1 11379,2,3,-1 11390,2,1,-10815 11392,50,2,1 11393,50,2,-1 11499,2,2,1",
    "11500,2,2,-1 11506,1,1,1 11507,1,1,-1 11520,38,1,-7264 11559,1,1,-7264 11565,1,1,-7264",
    "42560,23,2,1 42561,23,2,-1 42570,1,1,-35266 42571,1,1,-35267 42624,14,2,1 42625,14,2,-1",
    "42786,7,2,1 42787,7,2,-1 42802,31,2,1 42803,31,2,-1 42873,2,2,1 42874,2,2,-1",
    "42877,1,1,-35332 42878,5,2,1 42879,5,2,-1 42891,1,1,1 42892,1,1,-1 42893,1,1,-42280",
    "42896,2,2,1 42897,2,2,-1 42900,1,1,48 42902,10,2,1 42903,10,2,-1 42922,2,4,-42308",
    "42923,1,1,-42319 42924,1,1,-42315 42925,1,1,-42305 42928,1,1,-42258 42929,1,1,-42282",
    "42930,1,1,-42261 42931,1,1,928 42932,8,2,1 42933,8,2,-1 42948,1,1,-48 42949,1,1,-42307",
    "42950,1,1,-35384 42951,2,2,1 42952,2,2,-1 42955,1,1,-42343 42956,2,4,1 42957,2,4,-1",
    "42966,3,2,1 42967,3,2,-1 42972,1,1,-42561 42997,1,1,1 42998,1,1,-1 43859,1,1,-928",
    "43888,80,1,-38864 64261,1,1,1 64262,1,1,-1 65313,26,1,32 65345,26,1,-32 66560,40,1,40",
    "66600,40,1,-40 66736,36,1,40 66776,36,1,-40 66928,11,1,39 66940,15,1,39 66956,7,1,39",
    "66964,2,1,39 66967,11,1,-39 66979,15,1,-39 66995,7,1,-39 67003,2,1,-39 68736,51,1,64",
    "68800,51,1,-64 68944,22,1,32 68976,22,1,-32 71840,32,1,32 71872,32,1,-32 93760,32,1,32",
    "93792,32,1,-32 125184,34,1,34 125218,34,1,-34"]

def variantRuns : List VariantRun :=
  variantTable.flatMap fun line => (line.splitOn " ").filterMap VariantRun.ofText?

def asciiVariantRuns : List VariantRun :=
  [⟨65, 26, 1, 32⟩, ⟨97, 26, 1, -32⟩]

namespace VariantRun

def members (r : VariantRun) : List Nat :=
  (List.range r.count).map fun i => r.start + i * r.stride

def shift (r : VariantRun) (n : Nat) : Nat :=
  ((n : Int) + r.offset).toNat

def variants (r : VariantRun) (a : CharClass) : CharClass :=
  match CharClass.clip r.start (r.start + r.count * r.stride - 1)
      (a.runs.dropWhile (·.2 < r.start)) with
  | [] => .empty
  | near =>
    let inside := r.members.filter fun n => near.any fun run => run.1 ≤ n && n ≤ run.2
    ⟨CharClass.join (inside.map fun n => (r.shift n, r.shift n))⟩

end VariantRun

def hasVariant : CharClass :=
  .unionAll (variantRuns.map fun r => ⟨CharClass.join (r.members.map fun n => (n, n))⟩)

/-- The class with all case variants of its members, for ASCII text those of ASCII letters. -/
def withVariants (ascii : Bool) (a : CharClass) : CharClass :=
  (if ascii then asciiVariantRuns else variantRuns).foldl (fun set r => set ∪ r.variants a) a

end PackageAlgebra.Unicode
