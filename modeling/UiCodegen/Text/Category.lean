import UiCodegen.Text.Runs

/-!
# General categories

The general category of each code point: a letter for what it is, such as `L` for letters and `P`
for punctuation, and a letter for the kind of it.  Code points without a character are in `Cn`.
-/

namespace UiCodegen.Category

/-- The categories in runs, from U+0000 on.  Where two categories take turns, both stand there. -/
def table : String :=
  "32CcZs3PoSc3PoPsPePoSmPoPd2Po10Nd2Po3Sm2Po26LuPsPoPeSkPcSk26LlPsSmPeSm33CcZsPo4ScSoPoSkSoLoPiSm
   CfSoSkSoSm2NoSkLl2PoSkNoLoPf3NoPo23LuSm7Lu24LlSm8Ll56Lu/Ll17Ll/Lu48Ll/Lu6Lu/Ll2Ll2Lu4Ll/LuLuLl
   3Lu2Ll4LuLl2LuLl3Lu3Ll2LuLl2Lu6Ll/Lu4Lu/Ll4Ll/LuLuLl3Lu4Ll/LuLu2LlLoLu3Ll4LoLuLtLlLuLtLlLuLt
   17Ll/Lu19Ll/LuLlLuLt4Ll/Lu2Lu59Ll/Lu6Ll2LuLl2Lu2LlLuLl4Lu9Ll/Lu68Ll2Lo26Ll18Lm4Sk12Lm14Sk5Lm7Sk
   4Lm/Sk16Sk112Mn4Lu/LlLmSkLuLl2CnLm3LlPoLu4Cn2SkLuPo3Lu4Cn/LuLuLl17LuCn9Lu35LlLu2Ll3Lu3Ll24Lu/Ll
   4LlLuLlSmLuLl2Lu2Ll51Lu48Ll34Lu/LlSo5Mn2Me55Lu/Ll14Lu/Ll97Ll/LuCn38Lu2CnLm6Po41LlPoPd2Cn2SoScCn
   45MnPdMnPo2MnPo2MnPoMn8Cn27Lo4Cn4Lo2Po11Cn6Cf3Sm2PoSc2Po2So11MnPoCf3Po32LoLm10Lo21Mn10Nd4Po2LoMn
   99LoPoLo7MnCfSo6Mn2Lm2MnSo4Mn2Lo10Nd3Lo2SoLo14PoCnCfLoMn30Lo27Mn2Cn89Lo11MnLo14Cn10Nd33Lo9Mn2Lm
   So3PoLm2CnMn2Sc22Lo4MnLm9MnLm3MnLm5Mn2Cn15PoCn25Lo3Mn2CnPoCn11Lo5Cn24LoSk7Lo2Cf5Cn9Mn41LoLm24Mn
   Cf32MnMc54LoMnMcMnLo3Mc8Mn4McMn2McLo7Mn10Lo2Mn2Po10NdPoLm15LoMn2McCn8Lo2Cn2Lo2Cn22LoCn7LoCnLo3Cn
   4Lo2CnMnLo3Mc4Mn2Cn2Mc2Cn2McMnLo8CnMc4Cn2LoCn3Lo2Mn2Cn10Nd2Lo2Sc6NoSoScLoPoMn2Cn2MnMcCn6Lo4Cn2Lo
   2Cn22LoCn7LoCn2LoCn2LoCn2Lo2CnMnCn3Mc2Mn4Cn2Mn2Cn3Mn3CnMn7Cn4LoCnLo7Cn10Nd2Mn3LoMnPo10Cn2MnMcCn
   9LoCn3LoCn22LoCn7LoCn2LoCn5Lo2CnMnLo3Mc5MnCn2MnMcCn2McMn2CnLo15Cn2Lo2Mn2Cn10NdPoSc7CnLo6MnCnMn
   2McCn8Lo2Cn2Lo2Cn22LoCn7LoCn2LoCn5Lo2CnMnLo4Mc/Mn3Mn2Cn2Mc2Cn2McMn7Cn2MnMc4Cn2LoCn3Lo2Mn2Cn10Nd
   SoLo6No10CnMnLoCn6Lo3Cn3LoCn4Lo3Cn2Lo4Cn/LoLo3Cn2Lo3Cn3Lo3Cn12Lo4Cn2McMn2Mc3Cn3McCn3McMn2CnLo6Cn
   Mc14Cn10Nd3No6SoScSo5CnMn3McMn8LoCn3LoCn23LoCn16Lo2CnMnLo3Mn4McCn3MnCn4Mn7Cn2MnCn3LoCn2Lo2Cn2Lo
   2Mn2Cn10Nd7CnPo7NoSoLoMn2McPo8LoCn3LoCn23LoCn10LoCn5Lo2CnMnLoMcMn5McCnMn2McCn2Mc2Mn7Cn2Mc5Cn3Lo
   Cn2Lo2Mn2Cn10NdCn2LoMc12Cn2Mn2Mc9LoCn3LoCn41Lo2MnLo3Mc4MnCn3McCn3McMnLoSo4Cn3LoMc7No3Lo2Mn2Cn
   10Nd9NoSo6LoCnMn2McCn18Lo3Cn24LoCn9LoCnLo2Cn7Lo3CnMn4Cn3Mc3MnCnMnCn8Mc6Cn10Nd2Cn2McPo12Cn48LoMn
   2Lo7Mn4CnSc6LoLm8MnPo10Nd2Po37Cn2Lo4Cn/Lo4LoCn24Lo4Cn/Lo9LoMn2Lo9MnLo2Cn5LoCnLmCn7MnCn10Nd2Cn4Lo
   32CnLo3So15PoSoPo3So2Mn6So10Nd10No6So/Mn4Ps/Pe2Mc8LoCn36Lo4Cn14MnMc5MnPo2Mn5Lo11MnCn36MnCn8SoMn
   6SoCn2So5Po4So2Po37Cn43Lo2Mc4MnMc6MnMc2Mn2Mc2MnLo10Nd6Po6Lo2Mc2Mn4Lo3MnLo3Mc2Lo7Mc3Lo4Mn13LoMn
   2Mc2Mn6McMnLoMc10Nd3McMn2So38LuCnLu5CnLu2Cn43LlPoLm3Ll329LoCn4Lo2Cn7Lo4Cn/Lo3Lo2Cn41LoCn4Lo2Cn
   33LoCn4Lo2Cn7Lo4Cn/Lo3Lo2Cn15LoCn57LoCn4Lo2Cn67Lo2Cn3Mn9Po20No3Cn16Lo10So6Cn86Lu2Cn6Ll2CnPd620Lo
   SoPo17LoZs26LoPsPe3Cn75Lo3Po3Nl8Lo7Cn18Lo3MnMc9Cn19Lo2MnMc2Po9Cn18Lo2Mn12Cn13LoCn3LoCn2Mn12Cn
   52Lo2MnMc7Mn8McMn2Mc11Mn3PoLm3PoScLoMn2Cn10Nd6Cn10No6Cn6PoPd4Po3MnCfMn10Nd6Cn35LoLm53Lo7Cn5Lo2Mn
   34LoMnLo5Cn70Lo10Cn31LoCn3Mn4Mc2Mn3Mc4Cn2McMn6Mc3Mn4CnSo3Cn2Po10Nd30Lo2Cn5Lo11Cn44Lo4Cn26Lo6Cn
   10NdNo3Cn34So23Lo2Mn2McMn2Cn2Po53Lo4Mc/Mn6MnCn4Mn/McMc8Mn6Mc10Mn2CnMn10Nd6Cn10Nd6Cn7PoLm6Po2Cn
   14MnMe31Mn2Cn12Mn20Cn4MnMc47LoMnMc5MnMcMn5McMn2Mc8LoCn2Po10Nd7Po10So9Mn9So3Po2MnMc30LoMc4Mn2Mc
   2MnMc3Mn2Lo10Nd44LoMnMc2Mn3McMnMc3Mn2Mc8Cn4Po36Lo8Mc8Mn2Mc2Mn3Cn5Po10Nd3Cn3Lo10Nd30Lo6Lm2Po9LlLu
   Ll5Cn43Lu2Cn3Lu8Po8Cn3MnPo13MnMc7Mn4LoMn6LoMn2LoMc2MnLo5Cn44Ll63Lm13LlLm34Ll37Lm64Mn150Lu/Ll8Ll
   98Lu/Ll8Ll8Lu6Ll2Cn6Lu2Cn8Ll8Lu8Ll8Lu6Ll2Cn6Lu2Cn8Ll8Cn/Lu8Ll8Lu14Ll2Cn8Ll8Lt8Ll8Lt8Ll8Lt5LlCn
   2Ll4LuLtSkLl3Sk3LlCn2Ll4LuLt3Sk4Ll2Cn2Ll4LuCn3Sk8Ll5Lu3Sk2Cn3LlCn2Ll4LuLt2SkCn11Zs5Cf6Pd2PoPiPf
   Ps2PiPfPsPi8PoZlZp5CfZs9PoPiPf4Po2Pc3PoSmPsPe11PoSmPoPc10PoZs5CfCn10CfNoLm2Cn6No3SmPsPeLm10No3Sm
   PsPeCn13Lm3Cn34Sc14Cn13Mn4MeMn3Me12Mn15Cn2SoLu4SoLu2SoLl3Lu2Ll3LuLlSoLu2SoSm5Lu6So7Lu/So3LuSoLl
   4LuLl4LoLl2So2Ll2Lu5SmLu4LlSoSm2SoLlSo16No35NlLuLl4NlNo2So4Cn5Sm5So2Sm4SoSm2SoSm2SoSm7SoSm31So
   2Sm2So4Sm/So30So268Sm8So4Ps/Pe20So2Sm7SoPsPe81SoSm30So25Sm40So6Sm72So22Cn11So21Cn60No78So22No
   183SoSm9SoSm54So8Sm111SoSm248So14Ps/Pe30No44So5SmPsPe31Sm10Ps/Pe16Sm256So131Sm22Ps/Pe63Sm4Ps/Pe
   32SmPsPe258Sm48So21Sm2So6Sm39So2Cn138So48Lu48LlLuLl3Lu2Ll7Lu/Ll3LuLlLu2LlLu6Ll2Lm3Lu99Ll/LuLl6So
   4Lu/Ll3MnLuLl5Cn4PoNo2Po38LlCnLl5CnLl2Cn56Lo7CnLmPo14CnMn23Lo9Cn7LoCn7LoCn7LoCn7LoCn7LoCn7LoCn
   7LoCn7LoCn32Mn2Po4Pi/Pf3PoPiPfPoPiPf9PoPd2PoPdPoPiPf2PoPiPf8Ps/Pe5PoLm10Po2Pd4PoPdPoPs13Po2So3Po
   8Ps/PePd34Cn26SoCn89So12Cn214So26Cn16SoZs3PoSoLmLoNl10Ps/Pe2So8Ps/PePdPs2PeSo9Nl4Mn2McPd5Lm2So
   3NlLmLoPo2SoCn86Lo2Cn2Mn2Sk2LmLoPd90LoPo3LmLo5Cn43LoCn94LoCn2So4No10So32Lo38So9CnSo16Lo31SoCn
   10No30So8NoSo15No32So10No39So15No320So6592Lo64So21013LoLm1143Lo3Cn55So9Cn40Lo6Lm2Po268LoLm3Po
   16Lo10Nd2Lo20Cn46Lu/LlLoMn3MePo10MnPoLm28Lu/Ll2Lm2Mn70Lo10Nl2Mn6Po8Cn23Sk9Lm2Sk14Lu/Ll2Ll62Lu/Ll
   Lm8Ll5Lu/Ll10Lu/LlLm2Sk4Lu/LlLo4Lu/Ll2Ll21Lu/Ll4LuLl5Lu16Ll/Lu3Lu4Ll/Lu17Lu/Ll20Cn4LmLuLlLo2LmLl
   7LoMn3LoMn4LoMn23Lo2Mc2MnMc4SoMn3Cn6No2SoScSo6Cn52Lo4Po8Cn2Mc50Lo16Mc2Mn8Cn2Po10Nd6Cn18Mn6Lo3Po
   LoPo2LoMn10Nd28Lo8Mn2Po23Lo11Mn2Mc11CnPo29Lo3Cn3MnMc47LoMn2Mc4Mn2Mc2Mn3Mc13PoCnLm10Nd4Cn2Po5LoMn
   Lm9Lo10Nd5LoCn41Lo6Mn2Mc2Mn2Mc2Mn9Cn3LoMn8LoMnMc2Cn10Nd2Cn4Po16LoLm6Lo3SoLoMcMnMc50LoMnLo3Mn2Lo
   2Mn5Lo2MnLoMnLo24Cn2LoLm2Po11LoMc2Mn2Mc2PoLo2LmMcMn10Cn6Lo2Cn6Lo2Cn6Lo9Cn7LoCn7LoCn43LlSk4Lm9Ll
   Lm2Sk4Cn80Ll35Lo2McMn2McMn2McPoMcMn2Cn10Nd6Cn11172Lo12Cn23Lo4Cn49Lo4Cn2048Cs6400Co366Lo2Cn106Lo
   38Cn7Ll12Cn5Ll5CnLoMn10LoSm13LoCn5Lo4Cn/LoLoCn2LoCn108Lo17Sk16So363LoPePs16So64Lo2So54Lo8So32Cn
   12LoSc3So16Mn7PoPsPePo6Cn16MnPo2Pd2Pc16Ps/Pe2PoPsPe4Po3Pc3PoCn4PoPd6Ps/Pe3PoSmPd3SmCnPoSc2Po4Cn
   5LoCn135Lo2CnCfCn3PoSc3PoPsPePoSmPoPd2Po10Nd2Po3Sm2Po26LuPsPoPeSkPcSk26LlPsSmPeSmPsPePoPsPe2Po
   10LoLm45Lo2Lm31Lo3Cn6Lo2Cn6Lo2Cn6Lo2Cn3Lo3Cn2ScSmSkSo2ScCnSo4Sm2So10Cn3Cf2So2Cn12LoCn26LoCn19Lo
   Cn2LoCn15Lo2Cn14Lo34Cn123Lo5Cn3Po4Cn45No3Cn9So53Nl4No17So2No3SoCn13So3CnSo47Cn45SoMn130Cn29Lo3Cn
   49Lo15CnMn27No4Cn32Lo4No9Cn20LoNl8LoNl5Cn38Lo5Mn5Cn30LoCnPo36Lo4Cn8LoPo5Nl42Cn40Lu40Ll78Lo2Cn
   10Nd6Cn36Lu4Cn36Ll4Cn40Lo8Cn52Lo11CnPo11LuCn15LuCn7LuCn2LuCn11LlCn15LlCn7LlCn2Ll3Cn52Lo12Cn311Lo
   9Cn22Lo10Cn8Lo24Cn6LmCn42LmCn9Lm69Cn6Lo2CnLoCn44LoCn2Lo3CnLo2Cn23LoCnPo8No23Lo2So7No31Lo8Cn9No
   48Cn19LoCn2Lo5Cn5No22Lo6No3CnPo26Lo5CnPo26Lo38Cn56Lo4Cn2No2Lo16No2Cn46NoLo3MnCn2Mn5Cn4Mn4LoCn3Lo
   Cn29Lo2Cn3Mn4CnMn9No7Cn9Po7Cn29Lo2NoPo29Lo3No32Cn8LoSo28Lo2Mn4Cn5No7Po9Cn54Lo3Cn7Po22Lo2Cn8No
   19Lo5Cn8No18Lo7Cn4Po12Cn7No80Cn73Lo55Cn51Lu13Cn51Ll7Cn6No36Lo4Mn8Cn10Nd6Cn10Nd4LoLmLo22Lu3Cn5Mn
   PdLm22Ll8Cn2Sm208Cn31NoCn42LoCn2MnPd2Cn2Lo16Cn3LoLm2Lo8CnPo8So33Cn6Mn29Lo10NoLo8Cn22Lo11Mn4No5Po
   22Cn18Lo4Mn4Po38Cn21Lo7No20Cn23Lo9CnMcMnMc53Lo15Mn7Po4Cn20No10NdMn2Lo2MnLo9Cn3MnMc45Lo3Mc4Mn2Mc
   2Mn2PoCf4PoMn10CnCf2Cn25Lo7Cn10Nd6Cn3Mn36Lo5MnMc8MnCn10Nd4PoLo2McLo8Cn35LoMn2PoLo9Cn2MnMc48Lo3Mc
   9Mn2Mc4Lo4Po4MnPoMcMn10Nd4Lo/Po2PoCn20No11Cn18LoCn25Lo3Mc3Mn2McMnMc2Mn6PoMn2LoMn62Cn7Lo4Cn/Lo3Lo
   Cn15LoCn10LoPo6Cn47LoMn3Mc8Mn5Cn10Nd6Cn2Mn2McCn8Lo2Cn2Lo2Cn22LoCn7LoCn2LoCn5LoCn2MnLo2McMn4Mc2Cn
   2Mc2Cn3Mc2CnLo6CnMc5Cn5Lo2Mc2Cn7Mn3Cn5Mn11Cn10LoCnLo2CnLoCn38LoCnLo3Mc6MnCnMc2CnMcCn4McCn2McMnMc
   4Mn/Lo2PoCn2Po8Cn2Mn29Cn53Lo3Mc8Mn2Mc3MnMcMn4Lo5Po10Nd2PoCnPoMn3Lo30Cn48Lo3Mc6MnMcMn4Mc2MnMc2Mn
   2LoPoLo8Cn10Nd166Cn47Lo3Mc4Mn2Cn4Mc2MnMc2Mn23Po4Lo2Mn34Cn48Lo3Mc8Mn2McMnMc2Mn3PoLo11Cn10Nd6Cn
   13Po19Cn43Lo4Mn/McMc6MnMcMnLoPo6Cn10Nd6Cn20Nd28Cn27Lo2Cn4Mn/McMc4MnMc5Mn4Cn10Nd2No3PoSo7Lo185Cn
   44Lo3Mc9MnMc2MnPo100Cn32Lu32Ll10Nd9No12Cn8Lo2CnLo2Cn8LoCn2LoCn24Lo6McCn2Mc2Cn2MnMcMn4Lo/McMn3Po
   9Cn10Nd70Cn8Lo2Cn39Lo3Mc4Mn2Cn2Mn4McMnLoPoLoMc27CnLo10Mn40Lo6MnMcLo4Mn8PoMn8CnLo6Mn2Mc3Mn46Lo
   13MnMc2Mn3PoLo5Po13Cn73Lo7Cn10Po86CnMnMc3MnMcMnMc88Cn33LoPo14Cn10Nd6Cn9LoCn37LoMc7MnCn6MnMcMnLo
   5Po10Cn10Nd19No3Cn2Po30Lo2Cn22MnCnMc7MnMc2MnMc2Mn73Cn7LoCn2LoCn38Lo6Mn3CnMnCn2MnCn7MnLoMn8Cn10Nd
   6Cn6LoCn2LoCn32Lo5McCn2MnCn2McMnMcMnLo7Cn10Nd6Cn41LoLm2Lo4Cn10Nd246Cn19Lo2Mn2Mc2Po7Cn2MnLoMc13Lo
   Cn34Lo2Mc5Mn3Cn2McMnMcMn13Po10NdMn85CnLo15Cn21No8So4Sc17So13CnPo922Lo102Cn111NlCn5Po11Cn196Lo
   2636Cn97Lo2Po13Cn1072Lo16CfMn6Lo15Mn10Cn3995Lo5Cn583Lo6841Cn30Lo12Mn3Mc3Mn10Nd1734Cn569Lo7Cn31Lo
   Cn10Nd4Cn2Po79LoCn10Nd6Cn30Lo2Cn5MnPo10Cn48Lo7Mn5Po4So4LmPoSo10Cn10NdCn7NoCn21Lo5Cn19Lo432Cn3Lm
   40Lo2Lm3Po10Nd198Cn32Lu32Ll23No4Po5Cn25Lu2Cn25Ll44Cn75Lo4CnMnLo55Mc7Cn4Mn13Lm64Cn2LmPoLmMn11Cn
   2Mc2Lm3Nl9Cn7382Lo41Cn32Lo97Cn115Lo8701Cn4LmCn7LmCn2LmCn291Lo15CnLo29Cn3Lo2CnLo14Cn4Lo8Cn396Lo
   2308Cn107Lo5Cn13Lo3Cn9Lo7Cn10Lo2CnSo2MnPo4Cf3932Cn240So10Nd3So3Cn436So6Cn23So15Cn16SoSm15Cn46Mn
   2Cn23Mn9Cn116So60Cn246So10Cn39So2Cn60So2Mc3Mn3So6Mc8Cf8Mn2So7Mn30So4Mn61So21Cn66So3MnSo122Cn20No
   12Cn20No12Cn87So9Cn25No135Cn26Lu26Ll26Lu7LlCn18Ll26Lu26LlLuCn2Lu2CnLu2Cn2Lu2Cn4LuCn8Lu4Ll4Cn/Ll
   6LlCn11Ll26Lu26Ll2LuCn4Lu2Cn8LuCn7LuCn26Ll2LuCn4LuCn5LuCnLu3Cn7LuCn26Ll26Lu26Ll26Lu26Ll26Lu26Ll
   26Lu26Ll26Lu26Ll26Lu28Ll2Cn25LuSm25LlSm6Ll25LuSm25LlSm6Ll25LuSm25LlSm6Ll25LuSm25LlSm6Ll25LuSm
   25LlSm6LlLuLl2Cn50Nd512So55Mn4So50Mn8SoMn14SoMn2So5Po15Cn5MnCn15Mn1104Cn10LlLo20Ll6Cn6Ll213Cn7Mn
   Cn17Mn2Cn7MnCn2MnCn5Mn5Cn62Lm33CnMn112Cn45Lo3Cn7Mn7Lm2Cn10Nd4CnLoSo320Cn30LoMn17Cn44Lo4Mn10Nd5Cn
   Sc464Cn27LoLm4Mn10Nd214Cn30Lo2MnLo10Nd4CnPo192Cn31LoCn3LoMn2LoMn7Lo2Mn5LoMn8CnLoLm224Cn7LoCn4Lo
   Cn2LoCn15LoCn197Lo2Cn9No7Mn41Cn34Lu34Ll7MnLm4Cn10Nd4Cn2Po785Cn59NoSo3NoSc4No76Cn45NoSo15No194Cn
   4LoCn27LoCn2LoCnLo2CnLoCn10LoCn4Lo5Cn/Lo5CnLo4Cn7Lo/Cn2LoCn2LoCnLo2Cn11Lo/Cn4Lo/CnCn4LoCn7LoCn
   4LoCn4Lo4Cn/Lo9LoCn17Lo5Cn3LoCn5LoCn17Lo52Cn2Sm270Cn44So4Cn100So12Cn15So2Cn15SoCn15SoCn37So10Cn
   13No161So56Cn29So13Cn44So4Cn9So7Cn2So14Cn6So154Cn251So5Sk729So3Cn17So3Cn13So3Cn218So6Cn12So4CnSo
   15Cn12So4Cn56So8Cn10So6Cn40So8Cn30So2Cn12So4Cn2So14Cn9Sm39Cn344So8Cn14So2Cn13So3Cn11So3Cn57SoCn
   So4Cn16So2Cn12So4Cn10So7Cn147SoCn92So10NdSo1029Cn42720Lo32Cn4382Lo2Cn5774Lo2Cn7473Lo15Cn622Lo
   2466Cn542Lo1506Cn4939Lo5Cn8490Lo707463CnCf30Cn96Cf128Cn240Mn65040Cn65534Co2Cn65534Co2Cn"

def runs : Array Runs.Run := Runs.parse table

def ofCode (code : Nat) : Bytes := Runs.value runs code

def names : List (List Bytes) :=
  (Runs.words <| Bytes.ofString
    "C/Other Cc/Control/cntrl Cf/Format Cn/Unassigned Co/Private_Use Cs/Surrogate
     L/Letter LC/Cased_Letter Ll/Lowercase_Letter Lm/Modifier_Letter Lo/Other_Letter
     Lt/Titlecase_Letter Lu/Uppercase_Letter
     M/Mark/Combining_Mark Mc/Spacing_Mark Me/Enclosing_Mark Mn/Nonspacing_Mark
     N/Number Nd/Decimal_Number/digit Nl/Letter_Number No/Other_Number
     P/Punctuation/punct Pc/Connector_Punctuation Pd/Dash_Punctuation Pe/Close_Punctuation
     Pf/Final_Punctuation Pi/Initial_Punctuation Po/Other_Punctuation Ps/Open_Punctuation
     S/Symbol Sc/Currency_Symbol Sk/Modifier_Symbol Sm/Math_Symbol So/Other_Symbol
     Z/Separator Zl/Line_Separator Zp/Paragraph_Separator Zs/Space_Separator").map (Bytes.splitOn 47)

/-- Whether a code point is in a category, or in one of the categories that begin with a letter.  The
categories of `LC` are those of letters with case. -/
def has (name : Bytes) (code : Nat) : Bool :=
  let category := ofCode code
  if name == "LC" then category == "Ll" || category == "Lt" || category == "Lu"
  else Bytes.startsWith category name

end UiCodegen.Category
