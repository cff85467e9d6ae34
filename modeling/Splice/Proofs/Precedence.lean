import Mathlib.Logic.Equiv.Basic
import Mathlib.Order.Fin.Basic
import Splice.Proofs.Expansion.Likeness
import Splice.Proofs.Stripping

/-!
# The order of comment styles

Where more than one style opens, the first of them wins. The openers of styles that open at one
point are prefixes of one text, so one of any two is a prefix of the other: the styles overlap. So
the order of styles that do not overlap makes no difference (`Styles.Reorders.agrees`), and neither
does a style that never opens first, because the opener of an earlier one is a prefix of its own
(`Styles.DropsCovered.agrees`). What follows for tokens and for whole runs is that of styles which
agree.
-/

namespace Splice

/-- Two styles overlap when the opener of one is a prefix of the opener of the other. -/
def CommentStyle.Overlaps (style other : CommentStyle) : Prop :=
  style.opener <+: other.opener ∨ other.opener <+: style.opener

instance (style other : CommentStyle) : Decidable (style.Overlaps other) :=
  inferInstanceAs (Decidable (_ ∨ _))

/-- Styles that open at one point overlap. -/
lemma CommentStyle.overlaps_of_opens {style other : CommentStyle} {source : Text}
    (h : style.opens source = true) (hother : other.opens source = true) :
    style.Overlaps other :=
  List.prefix_or_prefix_of_prefix (List.isPrefixOf_iff_prefix.1 h)
    (List.isPrefixOf_iff_prefix.1 hother)

namespace Styles

/-- `other` has the styles of `styles` in an order of its own, in which styles that overlap stand as
before. Styles are told apart by their index, for the same style may occur more than once. -/
def Reorders (styles other : Styles) : Prop :=
  ∃ move : Fin styles.length ≃ Fin other.length,
    (∀ i, other.get (move i) = styles.get i) ∧
    ∀ i j, i < j → (styles.get i).Overlaps (styles.get j) → move i < move j

/-- `other` is `styles` without a style of which the opener starts with that of an earlier style. -/
def DropsCovered (styles other : Styles) : Prop :=
  ∃ i j : Fin styles.length, i < j ∧ (styles.get i).opener <+: (styles.get j).opener ∧
    other = styles.eraseIdx j

/-- The first style that opens is one that opens, and none before it does. -/
lemma first?_eq_some_iff {styles : Styles} {source : Text} {style : CommentStyle} :
    styles.first? source = some style ↔
      ∃ i : Fin styles.length, styles.get i = style ∧ style.opens source = true ∧
        ∀ j < i, (styles.get j).opens source = false := by
  rw [first?, List.find?_eq_some_iff_getElem]
  constructor
  · rintro ⟨hopens, i, hi, hstyle, hearlier⟩
    refine ⟨⟨i, hi⟩, hstyle, hopens, ?_⟩
    intro j hj
    simpa using hearlier j hj
  · rintro ⟨i, hstyle, hopens, hearlier⟩
    refine ⟨hopens, i, i.isLt, hstyle, ?_⟩
    intro j hj
    simpa using hearlier ⟨j, hj.trans i.isLt⟩ hj

/-- No style opens first exactly if none opens. -/
lemma first?_eq_none_iff {styles : Styles} {source : Text} :
    styles.first? source = none ↔ ∀ i, (styles.get i).opens source = false := by
  rw [first?, List.find?_eq_none]
  constructor
  · intro hnone i
    simpa using hnone _ (List.get_mem styles i)
  · intro hnone style hstyle
    obtain ⟨i, rfl⟩ := List.get_of_mem hstyle
    simpa using hnone i

/-- In another order in which overlapping styles stand as before, the same style opens first. The
styles that open at a point overlap, so the first of them stays before the others. -/
lemma Reorders.agrees {styles other : Styles} (h : styles.Reorders other) :
    styles.Agrees other := by
  obtain ⟨move, hsame, horder⟩ := h
  intro source
  cases hfirst : styles.first? source with
  | none =>
    rw [first?_eq_none_iff] at hfirst ⊢
    intro k
    obtain ⟨i, rfl⟩ := move.surjective k
    rw [hsame]
    exact hfirst i
  | some style =>
    obtain ⟨i, rfl, hopens, hearlier⟩ := first?_eq_some_iff.1 hfirst
    refine first?_eq_some_iff.2 ⟨move i, hsame i, hopens, ?_⟩
    intro k hk
    obtain ⟨j, rfl⟩ := move.surjective k
    rw [hsame, Bool.eq_false_iff]
    intro hj
    rcases lt_trichotomy i j with hlater | rfl | hbefore
    · exact absurd (horder i j hlater (CommentStyle.overlaps_of_opens hopens hj)) hk.asymm
    · exact lt_irrefl _ hk
    · rw [hearlier j hbefore] at hj
      cases hj

/-- Without a style that is covered by an earlier one, the same style opens first. -/
lemma DropsCovered.agrees {styles other : Styles} (h : styles.DropsCovered other) :
    styles.Agrees other := by
  obtain ⟨i, j, hlt, hcovered, rfl⟩ := h
  intro source
  have hsplit : styles.take j ++ styles.get j :: styles.drop (j + 1) = styles := by
    rw [List.get_eq_getElem, List.getElem_cons_drop, List.take_append_drop]
  have hwhole : styles.first? source = (first? (styles.take j) source).or
      (first? (styles.get j :: styles.drop (j + 1)) source) := by
    conv_lhs => rw [← hsplit]
    exact List.find?_append
  have hrest : first? (styles.eraseIdx j) source =
      (first? (styles.take j) source).or (first? (styles.drop (j + 1)) source) := by
    rw [List.eraseIdx_eq_take_drop_succ]
    exact List.find?_append
  rw [hwhole, hrest]
  cases hopens : (styles.get j).opens source with
  | true =>
    -- the earlier style opens too, so that the search ends before it comes to this one
    have hprefix := hcovered.trans (List.isPrefixOf_iff_prefix.1 hopens)
    have hmem : styles.get i ∈ styles.take j :=
      List.mem_take_iff_getElem.2 ⟨i, lt_min hlt i.isLt, rfl⟩
    have hsome : (first? (styles.take j) source).isSome = true :=
      List.find?_isSome.2 ⟨styles.get i, hmem, List.isPrefixOf_iff_prefix.2 hprefix⟩
    rw [Option.or_of_isSome hsome, Option.or_of_isSome hsome]
  | false =>
    have hskip : first? (styles.get j :: styles.drop (j + 1)) source =
        first? (styles.drop (j + 1)) source :=
      List.find?_cons_of_neg (by rw [hopens]; exact Bool.false_ne_true)
    rw [hskip]

end Styles

/-- **Order matters between overlapping styles only.** Take comment styles in another order in which
any two styles stand as before if the opener of one is a prefix of the opener of the other, or take
away a style of which the opener starts with that of an earlier one. Then every source has the same
tokens, whatever the trigger. And there is the same to report of runs of a text or of a file that
differ in nothing else: the same tree, in which each comment has the same style, or the same fault,
the same questions to the loader and the same log. -/
theorem report_of_reordered_styles {styles other : Styles}
    (h : styles.Reorders other ∨ styles.DropsCovered other) :
    (∀ trigger source, Dialect.tokens ⟨trigger, other⟩ source =
      Dialect.tokens ⟨trigger, styles⟩ source) ∧
    (∀ context context' settings settings' loader,
      (settings.getD (Context.active context)).styles = some styles →
      settings'.getD (Context.active context') =
        (settings.getD context.active).withStyles other →
      (∀ name content, (runText context' settings' loader name content).report =
        (runText context settings loader name content).report) ∧
      (∀ path, (runFile context' settings' loader path).report =
        (runFile context settings loader path).report)) := by
  have hagrees : styles.Agrees other := by
    rcases h with hreorders | hdrops
    · exact hreorders.agrees
    · exact hdrops.agrees
  refine ⟨?_, ?_⟩
  · intro trigger source
    exact @Dialect.tokens_withStyles ⟨trigger, styles⟩ other hagrees source
  · intro context context' settings settings' loader hstyles hother
    have halike : (context.plan settings loader).Alike (context'.plan settings' loader) := by
      unfold Context.plan
      rw [hother]
      exact ⟨rfl, rfl, rfl, styles, other, hstyles, rfl, hagrees⟩
    exact ⟨report_runText halike, report_runFile halike⟩

/-- Styles of which three overlap: a slash opens wherever a slash and a star do, or two slashes. -/
def Styles.slashes : Styles :=
  [.block, .semicolon, ⟨['/'], [], false, by simp⟩, CommentStyle.doubleSlash.stripped true]

/-- The same styles, with the one that does not overlap in front. -/
def Styles.slashesLast : Styles :=
  [.semicolon, .block, ⟨['/'], [], false, by simp⟩, CommentStyle.doubleSlash.stripped true]

/-- A text with comments of all these styles that asks for a file comes to the same tree in the
other order, and also without the style of two slashes, which never opens first. -/
theorem report_of_reordered_styles_slashes :
    Styles.slashes.Reorders .slashesLast ∧ Styles.slashes.DropsCovered (Styles.slashes.take 3) ∧
    ∃ report,
      (runText .initial (some (Settings.default.withStyles .slashes))
        (Catalogue.loader ⟨[("x", "/* p */ q".toList)]⟩) "m"
        "a // b\n#include \"x\"\n; c".toList).report = report ∧
      report.result = .ok (.file ⟨"m", 1, 1⟩ "m" "m"
        [.text ⟨"m", 1, 1⟩ "a ".toList,
          .comment ⟨"m", 1, 3⟩ "// b".toList (some ⟨['/'], [], false, by simp⟩),
          .text ⟨"m", 1, 7⟩ "\n".toList,
          .file ⟨"m", 2, 1⟩ "x" "x" [.comment ⟨"x", 1, 1⟩ "/* p */".toList (some .block),
            .text ⟨"x", 1, 8⟩ " q".toList],
          .comment ⟨"m", 3, 1⟩ "; c".toList (some .semicolon)]) ∧
      (runText .initial (some (Settings.default.withStyles .slashesLast))
        (Catalogue.loader ⟨[("x", "/* p */ q".toList)]⟩) "m"
        "a // b\n#include \"x\"\n; c".toList).report = report ∧
      (runText .initial (some (Settings.default.withStyles (Styles.slashes.take 3)))
        (Catalogue.loader ⟨[("x", "/* p */ q".toList)]⟩) "m"
        "a // b\n#include \"x\"\n; c".toList).report = report := by
  have hreorders : Styles.slashes.Reorders .slashesLast :=
    ⟨(Equiv.swap 0 1 : Fin 4 ≃ Fin 4), by decide, by decide⟩
  have hdrops : Styles.slashes.DropsCovered (Styles.slashes.take 3) :=
    ⟨(2 : Fin 4), (3 : Fin 4), by decide, by decide, rfl⟩
  refine ⟨hreorders, hdrops, _, rfl, by decide +kernel, ?_, ?_⟩
  · exact ((report_of_reordered_styles (.inl hreorders)).2 .initial .initial _ _ _ rfl rfl).1 _ _
  · exact ((report_of_reordered_styles (.inr hdrops)).2 .initial .initial _ _ _ rfl rfl).1 _ _

end Splice
