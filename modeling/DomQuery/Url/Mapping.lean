import DomQuery.Text.Category
import DomQuery.Text.Row

/-!
# Characters of domain names

Different characters can mean the same in a domain name: capitals are small
letters, wide and circled letters are plain ones, and some characters are there
for the eye only. `meaning?` gives the text that a character stands for, or
nothing when no domain name has it.
-/

namespace DomQuery.Url

open DomQuery.Text

/-- Series of characters with one character each: the first one, what it stands
for, the distance to the next and the number of them. -/
def meaningSeries : List (Nat × Nat × Nat × Nat) := [
  (0x41, 0x61, 1, 26), (0xC0, 0xE0, 1, 23), (0xD8, 0xF8, 1, 7), (0x100, 0x101, 2, 24),
  (0x141, 0x142, 2, 4), (0x14A, 0x14B, 2, 23), (0x1CD, 0x1CE, 2, 8), (0x1DE, 0x1DF, 2, 9),
  (0x1F8, 0x1F9, 2, 20), (0x222, 0x223, 2, 9), (0x246, 0x247, 2, 5), (0x391, 0x3B1, 1, 17),
  (0x3A3, 0x3C3, 1, 9), (0x3D8, 0x3D9, 2, 12), (0x400, 0x450, 1, 16), (0x410, 0x430, 1, 32),
  (0x460, 0x461, 2, 17), (0x48A, 0x48B, 2, 27), (0x4C1, 0x4C2, 2, 7), (0x4D0, 0x4D1, 2, 48),
  (0x531, 0x561, 1, 38), (0x10A0, 0x2D00, 1, 38), (0x13F8, 0x13F0, 1, 6),
  (0x1C90, 0x10D0, 1, 43), (0x1D31, 0x65, 2, 5), (0x1D34, 0x68, 2, 4), (0x1DAE, 0x272, 1, 4),
  (0x1E00, 0x1E01, 2, 75), (0x1EA0, 0x1EA1, 2, 48), (0x1F08, 0x1F00, 1, 8),
  (0x1F18, 0x1F10, 1, 6), (0x1F28, 0x1F20, 1, 8), (0x1F38, 0x1F30, 1, 8),
  (0x1F48, 0x1F40, 1, 6), (0x1F59, 0x1F51, 2, 4), (0x1F68, 0x1F60, 1, 8), (0x2074, 0x34, 1, 6),
  (0x2080, 0x30, 1, 10), (0x2096, 0x6B, 1, 4), (0x2135, 0x5D0, 1, 4), (0x2460, 0x31, 1, 9),
  (0x24B6, 0x61, 1, 26), (0x24D0, 0x61, 1, 26), (0x2C00, 0x2C30, 1, 48),
  (0x2C80, 0x2C81, 2, 50), (0x313A, 0x11B0, 1, 6), (0x3145, 0x1109, 1, 10),
  (0x314F, 0x1161, 1, 21), (0x3178, 0x112B, 1, 5), (0x3269, 0x110E, 1, 5),
  (0x32E4, 0x30CA, 1, 6), (0x32EE, 0x30DE, 1, 5), (0x32F5, 0x30E8, 1, 6),
  (0x32FB, 0x30EF, 1, 4), (0xA640, 0xA641, 2, 23), (0xA680, 0xA681, 2, 14),
  (0xA722, 0xA723, 2, 7), (0xA732, 0xA733, 2, 31), (0xA77E, 0xA77F, 2, 5),
  (0xA796, 0xA797, 2, 10), (0xA7B4, 0xA7B5, 2, 8), (0xAB70, 0x13A0, 1, 80),
  (0xFE41, 0x300C, 1, 4), (0xFF01, 0x21, 1, 32), (0xFF21, 0x61, 1, 26), (0xFF3B, 0x5B, 1, 36),
  (0xFF85, 0x30CA, 1, 6), (0xFF8F, 0x30DE, 1, 5), (0xFF96, 0x30E8, 1, 6),
  (0xFFAA, 0x11B0, 1, 6), (0xFFB5, 0x1109, 1, 10), (0xFFC2, 0x1161, 1, 6),
  (0xFFCA, 0x1167, 1, 6), (0xFFD2, 0x116D, 1, 6), (0xFFE9, 0x2190, 1, 4),
  (0x10400, 0x10428, 1, 40), (0x104B0, 0x104D8, 1, 36), (0x10570, 0x10597, 2, 19),
  (0x10571, 0x10598, 2, 5), (0x1057D, 0x105A4, 2, 7), (0x10C80, 0x10CC0, 1, 51),
  (0x10D50, 0x10D70, 1, 22), (0x118A0, 0x118C0, 1, 32), (0x16E40, 0x16E60, 1, 32),
  (0x1CCD6, 0x61, 1, 26), (0x1CCF0, 0x30, 1, 10), (0x1D400, 0x61, 1, 26),
  (0x1D41A, 0x61, 1, 26), (0x1D434, 0x61, 1, 26), (0x1D44E, 0x61, 2, 13), (0x1D457, 0x6A, 2, 9),
  (0x1D468, 0x61, 1, 26), (0x1D482, 0x61, 1, 26), (0x1D4A9, 0x6E, 1, 4), (0x1D4AE, 0x73, 1, 8),
  (0x1D4B6, 0x61, 1, 4), (0x1D4BB, 0x66, 2, 11), (0x1D4C6, 0x71, 2, 5), (0x1D4D0, 0x61, 1, 26),
  (0x1D4EA, 0x61, 1, 26), (0x1D507, 0x64, 1, 4), (0x1D50D, 0x6A, 1, 8), (0x1D516, 0x73, 1, 7),
  (0x1D51E, 0x61, 1, 26), (0x1D53B, 0x64, 1, 4), (0x1D540, 0x69, 1, 5), (0x1D54A, 0x73, 1, 7),
  (0x1D552, 0x61, 1, 26), (0x1D56C, 0x61, 1, 26), (0x1D586, 0x61, 1, 26),
  (0x1D5A0, 0x61, 1, 26), (0x1D5BA, 0x61, 1, 26), (0x1D5D4, 0x61, 1, 26),
  (0x1D5EE, 0x61, 1, 26), (0x1D608, 0x61, 1, 26), (0x1D622, 0x61, 1, 26),
  (0x1D63C, 0x61, 1, 26), (0x1D656, 0x61, 1, 26), (0x1D670, 0x61, 1, 26),
  (0x1D68A, 0x61, 1, 26), (0x1D6A8, 0x3B1, 1, 17), (0x1D6BA, 0x3C3, 1, 7),
  (0x1D6C2, 0x3B1, 1, 17), (0x1D6D4, 0x3C3, 1, 7), (0x1D6E2, 0x3B1, 1, 17),
  (0x1D6F4, 0x3C3, 1, 7), (0x1D6FC, 0x3B1, 1, 17), (0x1D70E, 0x3C3, 1, 7),
  (0x1D71C, 0x3B1, 1, 17), (0x1D72E, 0x3C3, 1, 7), (0x1D736, 0x3B1, 1, 17),
  (0x1D748, 0x3C3, 1, 7), (0x1D756, 0x3B1, 1, 17), (0x1D768, 0x3C3, 1, 7),
  (0x1D770, 0x3B1, 1, 17), (0x1D782, 0x3C3, 1, 7), (0x1D790, 0x3B1, 1, 17),
  (0x1D7A2, 0x3C3, 1, 7), (0x1D7AA, 0x3B1, 1, 17), (0x1D7BC, 0x3C3, 1, 7),
  (0x1D7CE, 0x30, 1, 10), (0x1D7D8, 0x30, 1, 10), (0x1D7E2, 0x30, 1, 10),
  (0x1D7EC, 0x30, 1, 10), (0x1D7F6, 0x30, 1, 10), (0x1E030, 0x430, 1, 9),
  (0x1E03C, 0x43E, 1, 11), (0x1E051, 0x430, 1, 9), (0x1E05F, 0x443, 1, 6),
  (0x1E900, 0x1E922, 1, 34), (0x1EE0A, 0x643, 1, 4), (0x1EE2A, 0x643, 1, 4),
  (0x1F130, 0x61, 1, 26), (0x1FBF0, 0x30, 1, 10)]

/-- What characters outside of the series stand for. -/
def meaningRows : List (Nat × String) := [
  (0xAA, "a"), (0xB2, "2 3"), (0xB5, "μ"), (0xB9, "1 o » 1⁄4 1⁄2 3⁄4"),
  (0x130, "i̇ ı ij ij ĵ ĵ ķ ķ ĸ ĺ ĺ ļ ļ ľ ľ l· l·"), (0x149, "ʼn"),
  (0x178, "ÿ ź ź ż ż ž ž s ƀ ɓ ƃ ƃ ƅ ƅ ɔ ƈ ƈ ɖ ɗ ƌ ƌ ƍ ǝ ə ɛ ƒ ƒ ɠ ɣ ƕ ɩ ɨ ƙ ƙ ƚ ƛ ɯ ɲ ƞ ɵ ơ ơ ƣ
    ƣ ƥ ƥ ʀ ƨ ƨ ʃ ƪ ƫ ƭ ƭ ʈ ư ư ʊ ʋ ƴ ƴ ƶ ƶ ʒ ƹ ƹ ƺ ƻ ƽ"),
  (0x1C4, "dž dž dž lj lj lj nj nj nj"), (0x1F1, "dz dz dz ǵ ǵ ƕ ƿ"), (0x220, "ƞ"),
  (0x23A, "ⱥ ȼ ȼ ƚ ⱦ ȿ ɀ ɂ ɂ ƀ ʉ ʌ"), (0x2B0, "h ɦ j r ɹ ɻ ʁ w y"), (0x2E0, "ɣ l s x ʕ"),
  (0x345, "ι"), (0x370, "ͱ ͱ ͳ ͳ ʹ ͵ ͷ"), (0x37F, "ϳ"), (0x386, "ά · έ ή ί"), (0x38C, "ό"),
  (0x38E, "ύ ώ"), (0x3CF, "ϗ β θ υ ύ ϋ φ π"), (0x3F0, "κ ρ σ ϳ θ ε ϶ ϸ ϸ σ ϻ ϻ ϼ ͻ ͼ ͽ"),
  (0x4C0, "ӏ"), (0x587, "եւ"), (0x675, "اٴ وٴ ۇٴ يٴ"), (0xE33, "\u0e4dา"), (0xEB3, "\u0ecdາ"),
  (0xEDC, "ຫນ ຫມ"), (0xF0C, "་"), (0xF77, "\u0fb2ཱྀ \u0fb3ྀ \u0fb3ཱྀ"), (0x10C7, "ⴧ"),
  (0x10CD, "ⴭ"), (0x10FC, "ნ"), (0x1C80, "в д о с т т ъ ѣ ꙋ ᲊ"), (0x1CBD, "ჽ ჾ ჿ"),
  (0x1D2C, "a æ b ᴯ d e ǝ"),
  (0x1D3C, "o ȣ p r t u w a ɐ ɑ ᴂ b d e ə ɛ ɜ g ᵎ k m ŋ o ɔ ᴖ ᴗ p t u ᴝ ɯ v ᴥ β γ δ φ χ i r u v β
    γ ρ φ χ"),
  (0x1D78, "н"),
  (0x1D9B, "ɒ c ɕ ð ɜ f ɟ ɡ ɥ ɨ ɩ ɪ ᵻ ʝ ɭ ᶅ ʟ ɱ ɰ ɲ ɳ ɴ ɵ ɸ ʂ ʃ ƫ ʉ ʊ ᴜ ʋ ʌ z ʐ ʑ ʒ θ"),
  (0x1E9A, "aʾ ṡ ẜ ẝ ß"),
  (0x1F80, "ἀι ἁι ἂι ἃι ἄι ἅι ἆι ἇι ἀι ἁι ἂι ἃι ἄι ἅι ἆι ἇι ἠι ἡι ἢι ἣι ἤι ἥι ἦι ἧι ἠι ἡι ἢι ἣι
    ἤι ἥι ἦι ἧι ὠι ὡι ὢι ὣι ὤι ὥι ὦι ὧι ὠι ὡι ὢι ὣι ὤι ὥι ὦι ὧι ᾰ ᾱ ὰι αι άι"),
  (0x1FB7, "ᾶι ᾰ ᾱ ὰ ά αι"), (0x1FC2, "ὴι ηι ήι"), (0x1FC7, "ῆι ὲ έ ὴ ή ηι"),
  (0x1FD8, "ῐ ῑ ὶ ί"), (0x1FE8, "ῠ ῡ ὺ ύ ῥ"), (0x1FF2, "ὼι ωι ώι"), (0x1FF7, "ῶι ὸ ό ὼ ώ ωι"),
  (0x2011, "‐"), (0x2033, "′′ ′′′ ‵ ‵‵ ‵‵‵ ‸ ‹ › ※ !!"), (0x2047, "?? ?! !?"),
  (0x2057, "′′′′"), (0x2070, "0 i"), (0x207A, "+ − = ( ) n"), (0x208A, "+ − = ( )"),
  (0x2090, "a e o x ə h k l m n p s t"), (0x20A8, "rs"),
  (0x2100, "a/c a/s c °c ℄ c/o c/u ɛ ℈ °f g h h h h ħ i i l l ℔ n no ℗ ℘ p q r r r ℞ ℟ sm tel tm
    ℣ z ℥ ω ℧ z ℩ k å b c ℮ e e f ⅎ m o א ב ג ד i ℺ fax π γ γ π ∑ ⅁ ⅂ ⅃ ⅄ d d e i j"),
  (0x2150, "1⁄7 1⁄9 1⁄10 1⁄3 2⁄3 1⁄5 2⁄5 3⁄5 4⁄5 1⁄6 5⁄6 1⁄8 3⁄8 5⁄8 7⁄8 1⁄ i ii iii iv v vi vii
    viii ix x xi xii l c d m i ii iii iv v vi vii viii ix x xi xii l c d m ↀ ↁ ↂ ↄ"),
  (0x2189, "0⁄3"), (0x222C, "∫∫ ∫∫∫ ∮ ∮∮ ∮∮∮"),
  (0x2469, "10 11 12 13 14 15 16 17 18 19 20 (1) (2) (3) (4) (5) (6) (7) (8) (9) (10) (11) (12)
    (13) (14) (15) (16) (17) (18) (19) (20)"),
  (0x249C, "(a) (b) (c) (d) (e) (f) (g) (h) (i) (j) (k) (l) (m) (n) (o) (p) (q) (r) (s) (t) (u)
    (v) (w) (x) (y) (z)"),
  (0x24EA, "0"), (0x2A0C, "∫∫∫∫"), (0x2A74, "::= == ==="),
  (0x2C60, "ⱡ ⱡ ɫ ᵽ ɽ ⱥ ⱦ ⱨ ⱨ ⱪ ⱪ ⱬ ⱬ ɑ ɱ ɐ ɒ ⱱ ⱳ ⱳ ⱴ ⱶ"), (0x2C7C, "j v ȿ ɀ"),
  (0x2CEB, "ⳬ ⳬ ⳮ ⳮ \u2cef \u2cf0 \u2cf1 ⳳ"), (0x2D6F, "ⵡ"), (0x2E9F, "母"), (0x2EF3, "龟"),
  (0x2F00, "一 丨 丶 丿 乙 亅 二 亠 人 儿 入 八 冂 冖 冫 几 凵 刀 力 勹 匕 匚 匸 十 卜 卩 厂 厶
    又 口 囗 土 士 夂 夊 夕 大 女 子 宀 寸 小 尢 尸 屮 山 巛 工 己 巾 干 幺 广 廴 廾 弋 弓 彐 彡
    彳 心 戈 戶 手 支 攴 文 斗 斤 方 无 日 曰 月 木 欠 止 歹 殳 毋 比 毛 氏 气 水 火 爪 父 爻 爿
    片 牙 牛 犬 玄 玉 瓜 瓦 甘 生 用 田 疋 疒 癶 白 皮 皿 目 矛 矢 石 示 禸 禾 穴 立 竹 米 糸 缶
    网 羊 羽 老 而 耒 耳 聿 肉 臣 自 至 臼 舌 舛 舟 艮 色 艸 虍 虫 血 行 衣 襾 見 角 言 谷 豆 豕
    豸 貝 赤 走 足 身 車 辛 辰 辵 邑 酉 釆 里 金 長 門 阜 隶 隹 雨 靑 非 面 革 韋 韭 音 頁 風 飛
    食 首 香 馬 骨 高 髟 鬥 鬯 鬲 鬼 魚 鳥 鹵 鹿 麥 麻 黃 黍 黑 黹 黽 鼎 鼓 鼠 鼻 齊 齒 龍 龜 龠"),
  (0x3002, "."), (0x3036, "〒 〷 十 卄 卅"), (0x309F, "より"), (0x30FF, "コト"),
  (0x3131, "ᄀ ᄁ ᆪ ᄂ ᆬ ᆭ ᄃ ᄄ ᄅ"), (0x3140, "ᄚ ᄆ ᄇ ᄈ ᄡ"),
  (0x3165, "ᄔ ᄕ ᇇ ᇈ ᇌ ᇎ ᇓ ᇗ ᇙ ᄜ ᇝ ᇟ ᄝ ᄞ ᄠ ᄢ ᄣ ᄧ ᄩ"),
  (0x317D, "ᄲ ᄶ ᅀ ᅇ ᅌ ᇱ ᇲ ᅗ ᅘ ᅙ ᆄ ᆅ ᆈ ᆑ ᆒ ᆔ ᆞ ᆡ"),
  (0x3192, "一 二 三 四 上 中 下 甲 乙 丙 丁 天 地 人"),
  (0x3200, "(ᄀ) (ᄂ) (ᄃ) (ᄅ) (ᄆ) (ᄇ) (ᄉ) (ᄋ) (ᄌ) (ᄎ) (ᄏ) (ᄐ) (ᄑ) (ᄒ) (가) (나) (다)
    (라) (마) (바) (사) (아) (자) (차) (카) (타) (파) (하) (주) (오전) (오후)"),
  (0x3220, "(一) (二) (三) (四) (五) (六) (七) (八) (九) (十) (月) (火) (水) (木) (金) (土) (日)
    (株) (有) (社) (名) (特) (財) (祝) (労) (代) (呼) (学) (監) (企) (資) (協) (祭) (休) (自)
    (至) 問 幼 文 箏"),
  (0x3250, "pte 21 22 23 24 25 26 27 28 29 30 31 32 33 34 35 ᄀ ᄂ ᄃ ᄅ ᄆ ᄇ ᄉ ᄋ ᄌ"),
  (0x326E, "가 나 다 라 마 바 사 아 자 차 카 타 파 하 참고 주의 우 ㉿ 一 二 三 四 五 六 七 八 九
    十 月 火 水 木 金 土 日 株 有 社 名 特 財 祝 労 秘 男 女 適 優 印 注 項 休 写 正 上 中 下 左
    右 医 宗 学 監 企 資 協 夜 36 37 38 39 40 41 42 43 44 45 46 47 48 49 50 1月 2月 3月 4月 5月
    6月 7月 8月 9月 10月 11月 12月 hg erg ev ltd ア イ ウ エ オ カ キ ク ケ コ サ シ ス セ ソ タ
    チ ツ テ ト"),
  (0x32EA, "ヒ フ ヘ ホ"), (0x32F3, "ヤ ユ"),
  (0x32FF, "令和 アパート アルファ アンペア アール イニング インチ ウォン エスクード エーカー
    オンス オーム カイリ カラット カロリー ガロン ガンマ ギガ ギニー キュリー ギルダー キロ
    キログラム キロメートル キロワット グラム グラムトン クルゼイロ クローネ ケース コルナ コーポ
    サイクル サンチーム シリング センチ セント ダース デシ ドル トン ナノ ノット ハイツ
    パーセント パーツ バーレル ピアストル ピクル ピコ ビル ファラッド フィート ブッシェル フラン
    ヘクタール ペソ ペニヒ ヘルツ ペンス ページ ベータ ポイント ボルト ホン ポンド ホール ホーン
    マイクロ マイル マッハ マルク マンション ミクロン ミリ ミリバール メガ メガトン メートル
    ヤード ヤール ユアン リットル リラ ルピー ルーブル レム レントゲン ワット 0点 1点 2点 3点 4点
    5点 6点 7点 8点 9点 10点 11点 12点 13点 14点 15点 16点 17点 18点 19点 20点 21点 22点 23点
    24点 hpa da au bar ov pc dm dm2 dm3 iu 平成 昭和 大正 明治 株式会社 pa na μa ma ka kb mb gb
    cal kcal pf nf μf μg mg kg hz khz mhz ghz thz μl ml dl kl fm nm μm mm cm km mm2 cm2 m2 km2
    mm3 cm3 m3 km3 m∕s m∕s2 pa kpa mpa gpa rad rad∕s rad∕s2 ps ns μs ms pv nv μv mv kv mv pw nw
    μw mw kw mw kω mω"),
  (0x33C3, "bq cc cd c∕kg"), (0x33C8, "db gy ha hp in kk km kt lm ln log lx mb mil mol ph"),
  (0x33D9, "ppm pr sr sv wb v∕m a∕m 1日 2日 3日 4日 5日 6日 7日 8日 9日 10日 11日 12日 13日 14日
    15日 16日 17日 18日 19日 20日 21日 22日 23日 24日 25日 26日 27日 28日 29日 30日 31日 gal"),
  (0xA69C, "ъ ь"), (0xA770, "ꝯ"), (0xA779, "ꝺ ꝺ ꝼ ꝼ ᵹ"), (0xA78B, "ꞌ ꞌ ɥ ꞎ ꞏ ꞑ ꞑ ꞓ"),
  (0xA7AA, "ɦ ɜ ɡ ɬ ɪ ꞯ ʞ ʇ ʝ ꭓ"), (0xA7C4, "ꞔ ʂ ᶎ ꟈ ꟈ ꟊ ꟊ ɤ ꟍ"), (0xA7D0, "ꟑ"),
  (0xA7D6, "ꟗ ꟗ ꟙ ꟙ ꟛ ꟛ ƛ"), (0xA7F2, "c f q ꟶ ꟶ ꟷ ħ œ"), (0xAB5C, "ꜧ ꬷ ɫ ꭒ"), (0xAB69, "ʍ"),
  (0xFB00, "ff fi fl ffi ffl st st"), (0xFB13, "մն մե մի վն մխ"),
  (0xFB20, "ע א ד ה כ ל ם ר ת +"),
  (0xFB4F, "אל ٱ ٱ ٻ ٻ ٻ ٻ پ پ پ پ ڀ ڀ ڀ ڀ ٺ ٺ ٺ ٺ ٿ ٿ ٿ ٿ ٹ ٹ ٹ ٹ ڤ ڤ ڤ ڤ ڦ ڦ ڦ ڦ ڄ ڄ ڄ ڄ ڃ ڃ ڃ
    ڃ چ چ چ چ ڇ ڇ ڇ ڇ ڍ ڍ ڌ ڌ ڎ ڎ ڈ ڈ ژ ژ ڑ ڑ ک ک ک ک گ گ گ گ ڳ ڳ ڳ ڳ ڱ ڱ ڱ ڱ ں ں ڻ ڻ ڻ ڻ ۀ ۀ ہ ہ
    ہ ہ ھ ھ ھ ھ ے ے ۓ ۓ"),
  (0xFBD3, "ڭ ڭ ڭ ڭ ۇ ۇ ۆ ۆ ۈ ۈ ۇٴ ۋ ۋ ۅ ۅ ۉ ۉ ې ې ې ې ى ى ئا ئا ئە ئە ئو ئو ئۇ ئۇ ئۆ ئۆ ئۈ ئۈ ئې
    ئې ئې ئى ئى ئى ی ی ی ی ئج ئح ئم ئى ئي بج بح بخ بم بى بي تج تح تخ تم تى تي ثج ثم ثى ثي جح جم
    حج حم خج خح خم سج سح سخ سم صح صم ضج ضح ضخ ضم طح طم ظم عج عم غج غم فج فح فخ فم فى في قح قم قى
    قي كا كج كح كخ كل كم كى كي لج لح لخ لم لى لي مج مح مخ مم مى مي نج نح نخ نم نى ني هج هم هى هي
    يج يح يخ يم يى يي ذٰ رٰ ىٰ"),
  (0xFC64, "ئر ئز ئم ئن ئى ئي بر بز بم بن بى بي تر تز تم تن تى تي ثر ثز ثم ثن ثى ثي فى في قى قي
    كا كل كم كى كي لم لى لي ما مم نر نز نم نن نى ني ىٰ ير يز يم ين يى يي ئج ئح ئخ ئم ئه بج بح بخ
    بم به تج تح تخ تم ته ثم جح جم حج حم خج خم سج سح سخ سم صح صخ صم ضج ضح ضخ ضم طح ظم عج عم غج غم
    فج فح فخ فم قح قم كج كح كخ كل كم لج لح لخ لم له مج مح مخ مم نج نح نخ نم نه هج هم هٰ يج يح يخ
    يم يه ئم ئه بم به تم ته ثم ثه سم سه شم شه كل كم لم نم نه يم يه ـَّ ـُّ ـِّ طى طي عى عي غى غي
    سى سي شى شي حى حي جى جي خى خي صى صي ضى ضي شج شح شخ شم شر سر صر ضر طى طي عى عي غى غي سى سي شى
    شي حى حي جى جي خى خي صى صي ضى ضي شج شح شخ شم شر سر صر ضر شج شح شخ شم سه شه طم سج سح سخ شج شح
    شخ طم ظم اً اً"),
  (0xFD50, "تجم تحج تحج تحم تخم تمج تمح تمخ جمح جمح حمي حمى سحج سجح سجى سمح سمح سمج سمم سمم صحح
    صحح صمم شحم شحم شجي شمخ شمخ شمم شمم ضحى ضخم ضخم طمح طمح طمم طمي عجم عمم عمم عمى غمم غمي غمى
    فخم فخم قمح قمم لحم لحي لحى لجج لجج لخم لخم لمح لمح محج محم محي مجح مجم مخج مخم"),
  (0xFD92, "مجخ همج همم نحم نحى نجم نجم نجى نمي نمى يمم يمم بخي تجي تجى تخي تخى تمي تمى جمي جحى
    جمى سخى صحي شحي ضحي لجي لمي يحي يجي يمي ممي قمي نحي قمح لحم عمي كمي نجح مخي لجم كمم لجم نجح
    جحي حجي مجي فمي بحي كمم عجم صمم سخي نجي"),
  (0xFDF0, "صلے قلے الله اكبر محمد صلعم رسول عليه وسلم صلى"), (0xFDFC, "ریال"),
  (0xFE10, ", 、"), (0xFE13, ": ; ! ? 〖 〗"),
  (0xFE31, "— – _ _ ( ) \x7b \x7d 〔 〕 【 】 《 》 〈 〉"), (0xFE47, "[ ]"),
  (0xFE4D, "_ _ _ , 、"), (0xFE54, "; : ? ! — ( ) \x7b \x7d 〔 〕 # & * + - < > ="),
  (0xFE68, "\\ $ % @"), (0xFE71, "ـً"), (0xFE77, "ـَ"), (0xFE79, "ـُ"), (0xFE7B, "ـِ"),
  (0xFE7D, "ـّ"),
  (0xFE7F, "ـْ ء آ آ أ أ ؤ ؤ إ إ ئ ئ ئ ئ ا ا ب ب ب ب ة ة ت ت ت ت ث ث ث ث ج ج ج ج ح ح ح ح خ خ خ خ
    د د ذ ذ ر ر ز ز س س س س ش ش ش ش ص ص ص ص ض ض ض ض ط ط ط ط ظ ظ ظ ظ ع ع ع ع غ غ غ غ ف ف ف ف ق ق ق
    ق ك ك ك ك ل ل ل ل م م م م ن ن ن ن ه ه ه ه و و ى ى ي ي ي ي لآ لآ لأ لأ لإ لإ لا لا"),
  (0xFF5F, "⦅ ⦆ . 「 」 、 ・ ヲ ァ ィ ゥ ェ ォ ャ ュ ョ ッ ー ア イ ウ エ オ カ キ ク ケ コ サ
    シ ス セ ソ タ チ ツ テ ト"),
  (0xFF8B, "ヒ フ ヘ ホ"), (0xFF94, "ヤ ユ"), (0xFF9C, "ワ ン \u3099 \u309a"),
  (0xFFA1, "ᄀ ᄁ ᆪ ᄂ ᆬ ᆭ ᄃ ᄄ ᄅ"), (0xFFB0, "ᄚ ᄆ ᄇ ᄈ ᄡ"), (0xFFDA, "ᅳ ᅴ ᅵ"),
  (0xFFE0, "¢ £ ¬"), (0xFFE4, "¦ ¥ ₩"), (0xFFE8, "│ ← ↑ → ↓ ■ ○"), (0x1058D, "𐖴 𐖵 𐖶 𐖷 𐖸"),
  (0x10595, "𐖼"), (0x10781, "ː ˑ æ ʙ ɓ"),
  (0x10787, "ʣ ꭦ ʥ ʤ ɖ ɗ ᶑ ɘ ɞ ʩ ɤ ɢ ɠ ʛ ħ ʜ ɧ ʄ ʪ ʫ ɬ 𝼄 ꞎ ɮ 𝼅 ʎ 𝼆 ø ɶ ɷ q ɺ 𝼈 ɽ ɾ ʀ ʨ ʦ ꭧ ʧ ʈ ⱱ"),
  (0x107B2, "ʏ ʡ ʢ ʘ ǀ ǁ ǂ 𝼊 𝼞"), (0x1D44F, "b c d e f"), (0x1D49C, "a"), (0x1D49E, "c d"),
  (0x1D4A2, "g"), (0x1D4A5, "j k"), (0x1D4BE, "i j k l m"), (0x1D504, "a b"), (0x1D538, "a b"),
  (0x1D546, "o"), (0x1D6A4, "ı ȷ"), (0x1D6B9, "θ"), (0x1D6C1, "∇"), (0x1D6D3, "σ"),
  (0x1D6DB, "∂ ε θ κ φ ρ π"), (0x1D6F3, "θ"), (0x1D6FB, "∇"), (0x1D70D, "σ"),
  (0x1D715, "∂ ε θ κ φ ρ π"), (0x1D72D, "θ"), (0x1D735, "∇"), (0x1D747, "σ"),
  (0x1D74F, "∂ ε θ κ φ ρ π"), (0x1D767, "θ"), (0x1D76F, "∇"), (0x1D781, "σ"),
  (0x1D789, "∂ ε θ κ φ ρ π"), (0x1D7A1, "θ"), (0x1D7A9, "∇"), (0x1D7BB, "σ"),
  (0x1D7C3, "∂ ε θ κ φ ρ π ϝ ϝ"), (0x1E039, "к л м"), (0x1E047, "ы э ю ꚉ ә і ј ө ү ӏ"),
  (0x1E05A, "к л о п с"), (0x1E065, "ъ ы ґ і ѕ џ ҫ ꙑ ұ"), (0x1EE00, "ا ب ج د"),
  (0x1EE05, "و ز ح ط ي ك ل م ن س ع ف ص ق ر ش ت ث خ ذ ض ظ غ ٮ ں ڡ ٯ"), (0x1EE21, "ب ج"),
  (0x1EE24, "ه"), (0x1EE27, "ح"), (0x1EE29, "ي ك ل م ن س ع ف ص ق"), (0x1EE34, "ش ت ث خ"),
  (0x1EE39, "ض"), (0x1EE3B, "غ"), (0x1EE42, "ج"), (0x1EE47, "ح"), (0x1EE49, "ي"),
  (0x1EE4B, "ل"), (0x1EE4D, "ن س ع"), (0x1EE51, "ص ق"), (0x1EE54, "ش"), (0x1EE57, "خ"),
  (0x1EE59, "ض"), (0x1EE5B, "غ"), (0x1EE5D, "ں"), (0x1EE5F, "ٯ"), (0x1EE61, "ب ج"),
  (0x1EE64, "ه"), (0x1EE67, "ح ط ي ك"), (0x1EE6C, "م ن س ع ف ص ق"), (0x1EE74, "ش ت ث خ"),
  (0x1EE79, "ض ظ غ ٮ"), (0x1EE7E, "ڡ"), (0x1EE80, "ا ب ج د ه و ز ح ط ي"),
  (0x1EE8B, "ل م ن س ع ف ص ق ر ش ت ث خ ذ ض ظ غ"), (0x1EEA1, "ب ج د"), (0x1EEA5, "و ز ح ط ي"),
  (0x1EEAB, "ل م ن س ع ف ص ق ر ش ت ث خ ذ ض ظ غ"), (0x1F101, "0, 1, 2, 3, 4, 5, 6, 7, 8, 9,"),
  (0x1F110, "(a) (b) (c) (d) (e) (f) (g) (h) (i) (j) (k) (l) (m) (n) (o) (p) (q) (r) (s) (t) (u)
    (v) (w) (x) (y) (z) 〔s〕 c r cd wz"),
  (0x1F14A, "hv mv sd ss ppv wc"), (0x1F16A, "mc md mr"), (0x1F190, "dj"),
  (0x1F200, "ほか ココ サ"),
  (0x1F210, "手 字 双 デ 二 多 解 天 交 映 無 料 前 後 再 新 初 終 生 販 声 吹 演 投 捕 一 三 遊
    左 中 右 指 走 打 禁 空 合 満 有 月 申 割 営 配"),
  (0x1F240, "〔本〕 〔三〕 〔二〕 〔安〕 〔点〕 〔打〕 〔盗〕 〔勝〕 〔敗〕"),
  (0x1F250, "得 可")]

/-- Characters that count for nothing. -/
def silentChars : CharSet := .ofList [
  (0xAD, 0xAD), (0x34F, 0x34F), (0x115F, 0x1160), (0x17B4, 0x17B5), (0x180B, 0x180F),
  (0x200B, 0x200B), (0x2060, 0x2064), (0x206A, 0x206F), (0x3164, 0x3164), (0xFE00, 0xFE0F),
  (0xFEFF, 0xFEFF), (0xFFA0, 0xFFA0), (0x1BCA0, 0x1BCA3), (0x1D173, 0x1D17A),
  (0xE0100, 0xE01EF)]

/-- Signs that stand for text with a blank or a point in it, and signs without a
meaning of their own. -/
def refusedSigns : CharSet := .ofList [
  (0xA8, 0xA8), (0xAF, 0xAF), (0xB4, 0xB4), (0xB8, 0xB8), (0x2D8, 0x2DD), (0x37A, 0x37A),
  (0x384, 0x385), (0x1FBD, 0x1FBD), (0x1FBF, 0x1FC1), (0x1FCD, 0x1FCF), (0x1FDD, 0x1FDF),
  (0x1FED, 0x1FEE), (0x1FFD, 0x1FFE), (0x2017, 0x2017), (0x2024, 0x2026), (0x203E, 0x203E),
  (0x2488, 0x249B), (0x2FF0, 0x2FFF), (0x309B, 0x309C), (0x31EF, 0x31EF), (0x33C2, 0x33C2),
  (0x33C7, 0x33C7), (0x33D8, 0x33D8), (0xFC5E, 0xFC63), (0xFDFA, 0xFDFB), (0xFE12, 0xFE12),
  (0xFE19, 0xFE19), (0xFE30, 0xFE30), (0xFE49, 0xFE4C), (0xFE52, 0xFE52), (0xFE70, 0xFE70),
  (0xFE72, 0xFE72), (0xFE74, 0xFE74), (0xFE76, 0xFE76), (0xFE78, 0xFE78), (0xFE7A, 0xFE7A),
  (0xFE7C, 0xFE7C), (0xFE7E, 0xFE7E), (0xFFE3, 0xFFE3), (0xFFFC, 0xFFFD), (0x1F100, 0x1F100)]

/-- Controls, blanks, and code points without a meaning. -/
def blankChars : CharSet :=
  .ofCategories ["Cc", "Cf", "Cn", "Co", "Cs", "Zl", "Zp", "Zs"]

/-- The two characters that ask letters to join or not to join. -/
def isJoiner (c : Char) : Bool :=
  c == '\u200c' || c == '\u200d'

/-- A character beyond ASCII that no domain name has. -/
def isRefused (c : Char) : Bool :=
  0x7F < c.toNat && !isJoiner c && (blankChars.contains c || refusedSigns.contains c)

/-- What a series has for `c`. -/
def seriesMeaning? (c : Char) : Option Char :=
  meaningSeries.findSome? fun (first, target, step, count) =>
    let n := c.toNat - first
    if first ≤ c.toNat && n % step == 0 && n / step < count then some (Char.ofNat (target + n))
    else none

/-- The text that `c` stands for. -/
def meaning? (c : Char) : Option (List Char) :=
  if silentChars.contains c then some []
  else if isRefused c then none
  else
    match seriesMeaning? c with
    | some d => some [d]
    | none => some ((rowText? meaningRows c).getD [c])

end DomQuery.Url
