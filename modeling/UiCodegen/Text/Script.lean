import UiCodegen.Text.Category

/-!
# Scripts

The script that each code point belongs to.  Characters of several scripts are in `Common` or
`Inherited`, and code points without a character in `Unknown`.
-/

namespace UiCodegen.Script

/-- The scripts in runs, from U+0000 on.  A run goes on across code points without a character. -/
def table : String :=
  "65Common26Latin6Common26Latin47CommonLatin15CommonLatin5Common23LatinCommon31LatinCommon449Latin
   39Common5Latin5Common2Bopomofo20Common112Inherited4GreekCommon9GreekCommon6Greek4Common/Greek
   89Greek14Coptic16Greek133Cyrillic2Inherited170Cyrillic96Armenian111Hebrew5ArabicCommon6Arabic
   Common14ArabicCommon3ArabicCommon32ArabicCommon10Arabic11Inherited26ArabicInherited108Arabic
   Common34Arabic80Syriac48Arabic64Thaana64Nko64Samaritan32Mandaic16Syriac114ArabicCommon29Arabic
   81Devanagari4Inherited15Devanagari2Common26Devanagari129Bengali128Gurmukhi128Gujarati129Oriya
   126Tamil128Telugu128Kannada129Malayalam128Sinhala62ThaiCommon65Thai127Lao213Tibetan4Common
   39Tibetan160Myanmar91GeorgianCommon4Georgian256Hangul416Ethiopic96Cherokee640Canadian_Aboriginal
   32Ogham75Runic3Common18Runic32Tagalog21Hanunoo11Common32Buhid32Tagbanwa128Khmer2Mongolian2Common
   MongolianCommon170Mongolian80Canadian_Aboriginal80Limbu48Tai_Le96New_Tai_Lue32Khmer32Buginese
   144Tai_Tham80Inherited128Balinese64Sundanese64Batak80Lepcha48Ol_Chiki16Cyrillic48Georgian
   16Sundanese3InheritedCommon13InheritedCommon7Inherited4CommonInherited6CommonInherited3Common
   2Inherited6Common38Latin5GreekCyrillic49Latin5Greek4Latin5Greek13LatinCyrillic70LatinGreek
   64Inherited256Latin256Greek12Common2Inherited99Common3Latin11CommonLatin16Common16Latin48Common
   48Inherited38CommonGreek3Common2Latin6CommonLatin27CommonLatin17Common41Latin1655Common
   256Braille768Common96Glagolitic32Latin128Coptic48Georgian80Tifinagh96Ethiopic32Cyrillic128Common
   368Han21Common4Han/Common24Common9Han4Inherited2Hangul8Common4Han5Common88Hiragana2Inherited
   2Common3HiraganaCommon90Katakana2Common8Katakana44Bopomofo95Hangul16Common32Bopomofo48Common
   16Katakana32Hangul64Common31Hangul81Common47KatakanaCommon88Katakana168Common6592Han64Common
   20992Han1232Yi48Lisu320Vai96Cyrillic96Bamum34Common102Latin3Common117Latin48Syloti_Nagri16Common
   64Phags_Pa96Saurashtra32Devanagari46Kayah_LiCommonKayah_Li48Rejang32Hangul79JavaneseCommon
   16Javanese32Myanmar96Cham32Myanmar96Tai_Viet33Meetei_Mayek47Ethiopic43LatinCommon9LatinGreek
   4Latin6Common80Cherokee64Meetei_Mayek19712Hangul512Han19Latin10Armenian51Hebrew494Arabic2Common
   192Arabic16Inherited16Common14Inherited2Cyrillic64Common143Arabic34Common26Latin6Common26Latin
   11Common10KatakanaCommon45Katakana2Common64Hangul32Common256Linear_B64Common80Greek16Common
   48Greek45Common131Inherited32Lycian64CarianInherited31Common48Old_Italic32Gothic48Old_Permic
   32Ugaritic96Old_Persian80Deseret48Shavian48Osmanya80Osage48Elbasan64Caucasian_Albanian80Vithkuqi
   64Todhri384Linear_A128Latin64Cypriot32Imperial_Aramaic32Palmyrene96Nabataean32Hatran32Phoenician
   32Lydian64Sidetic32Meroitic_Hieroglyphs96Meroitic_Cursive96Kharoshthi32Old_South_Arabian
   64Old_North_Arabian64Manichaean64Avestan32Inscriptional_Parthian32Inscriptional_Pahlavi
   128Psalter_Pahlavi128Old_Turkic128Old_Hungarian64Hanifi_Rohingya288Garay32Arabic66Yezidi62Arabic
   48Old_Sogdian64Sogdian64Old_Uyghur48Chorasmian32Elymaic128Brahmi80Kaithi48Sora_Sompeng80Chakma
   48Mahajani97Sharada31Sinhala128Khojki48Multani80Khudawadi59GranthaInherited68Grantha
   128Tulu_Tigalari128Newa256Tirhuta128Siddham96Modi32Mongolian80Takri48Myanmar256Ahom160Dogra
   96Warang_Citi160Dives_Akuru96Nandinagari80Zanabazar_Square96Soyombo16Canadian_Aboriginal
   64Pau_Cin_Hau96Devanagari96Sharada64Sunuwar112Bhaiksuki144Marchen96Masaram_Gondi80Gunjala_Gondi
   304Tolong_Siki32Makasar176Kawi16Lisu64Tamil3984Cuneiform112Cypro_Minoan5120Egyptian_Hieroglyphs
   7424Anatolian_Hieroglyphs1792Gurung_Khema576Bamum48Mro96Tangsa48Bassa_Vah576Pahawh_Hmong
   256Kirat_Rai96Medefaidrin96Beria_Erfe224MiaoTangutNushu2Han12Khitan_Small_Script16Han6912Tangut
   512Khitan_Small_Script8944Tangut17Katakana287Hiragana18Katakana35Hiragana27Katakana2704Nushu
   160Duployan4704Common80Inherited535Common3Inherited17Common8Inherited2Common7Inherited30Common
   4Inherited82Common192Greek1344Common1792Sign_Writing256Latin48Glagolitic208Cyrillic
   400Nyiakeng_Puachue_Hmong48Toto528Wancho256Nag_Mundari240Ol_Onal288Tai_Yo32Ethiopic
   256Mende_Kikakui881Adlam399Common512Arabic512CommonHiragana3583Common786433Han255Common
   196352Inherited"

def runs : Array Runs.Run := Runs.parse table

/-- The categories of code points that belong to no script: those without a character, those for
private use and the halves of pairs. -/
def unknown : List Bytes := ["Cn", "Co", "Cs"]

/-- The script of a code point. -/
def ofCode (code : Nat) : Bytes :=
  if unknown.contains (Category.ofCode code) then "Unknown" else Runs.value runs code

/-- The scripts by name; `Unknown` is none of them. -/
def names : List Bytes := (runs.toList.map (·.even)).eraseDups

end UiCodegen.Script
