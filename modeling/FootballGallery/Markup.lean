/-
# Markup in the news

`APIUtil.getLSNewsJSON` takes eight tokens of markup out of a news text, one after
the other. A pass that deletes its token brings together what was around it, so a
token that an earlier pass has looked for can come about later.

Key definitions: `replaceAll`, `markup`, `withoutMarkup`, `HasTornToken`.
Key theorems: `toList_withoutMarkup`, `withoutMarkup_clean_iff`.
-/
import FootballGallery.Lib.Tokens

namespace FootballGallery
namespace APIUtil

open Tokens

/-- Java's `String.replaceAll` with a pattern and a replacement that are plain texts. -/
def replaceAll (content tag replacement : String) : String :=
  .ofList (Tokens.replaceAll tag.toList replacement.toList content.toList)

/-- What `getLSNewsJSON` appends to the description. -/
def withoutMarkup (content : String) : String :=
  let tag := "<p>"
  let tag1 := "</p>"
  let tag2 := "&nbsp;"
  let tag3 := "<br>"
  let tag4 := "<strong>"
  let tag5 := "</strong>"
  let tag6 := "<i>"
  let tag7 := "</i>"
  let content := replaceAll content tag ""
  let content := replaceAll content tag1 "\n\n "
  let content := replaceAll content tag2 " "
  let content := replaceAll content tag3 ""
  let content := replaceAll content tag4 ""
  let content := replaceAll content tag5 ""
  let content := replaceAll content tag6 ""
  replaceAll content tag7 "\n\n "

/-- The tokens, in the order of their passes, and what is put for them. -/
def markup : List (String × String) :=
  [("<p>", ""), ("</p>", "\n\n "), ("&nbsp;", " "), ("<br>", ""), ("<strong>", ""), ("</strong>", ""),
    ("<i>", ""), ("</i>", "\n\n ")]

/-- The passes, on the letters. -/
def passes : List (List Char × List Char) := markup.map fun p => (p.1.toList, p.2.toList)

def opener (c : Char) : Bool := c == '<' || c == '&'

def closer (c : Char) : Bool := c == '>' || c == ';'

/-- Somewhere in the text is a token with deleted tokens put between its letters, and
again between the letters of these: at least one that the token's own pass or a later
one deletes, and any that earlier passes delete. -/
def HasTornToken (content : String) : Prop :=
  ∃ pre p post W, passes = pre ++ p :: post ∧ Torn pre p post W ∧ W <:+: content.toList

theorem toList_withoutMarkup (content : String) : (withoutMarkup content).toList = run passes content.toList := by
  unfold withoutMarkup replaceAll
  simp only [String.toList_ofList]
  rfl

theorem passes_tokens : Passes opener closer (fun c => c = '\n' ∨ c = ' ') passes := by
  have htokens : ∀ p ∈ passes, IsToken opener closer p.1 := by
    intro p hp
    simp only [passes, markup, List.map_cons, List.map_nil, List.mem_cons, List.not_mem_nil, or_false] at hp
    rcases hp with rfl | rfl | rfl | rfl | rfl | rfl | rfl | rfl
    · exact @isToken_cons _ opener closer '<' '>' ['p'] (by decide) (by decide) (by simp [opener, closer])
    · exact @isToken_cons _ opener closer '<' '>' ['/', 'p'] (by decide) (by decide) (by simp [opener, closer])
    · exact @isToken_cons _ opener closer '&' ';' ['n', 'b', 's', 'p'] (by decide) (by decide)
        (by simp [opener, closer])
    · exact @isToken_cons _ opener closer '<' '>' ['b', 'r'] (by decide) (by decide) (by simp [opener, closer])
    · exact @isToken_cons _ opener closer '<' '>' ['s', 't', 'r', 'o', 'n', 'g'] (by decide) (by decide)
        (by simp [opener, closer])
    · exact @isToken_cons _ opener closer '<' '>' ['/', 's', 't', 'r', 'o', 'n', 'g'] (by decide) (by decide)
        (by simp [opener, closer])
    · exact @isToken_cons _ opener closer '<' '>' ['i'] (by decide) (by decide) (by simp [opener, closer])
    · exact @isToken_cons _ opener closer '<' '>' ['/', 'i'] (by decide) (by decide) (by simp [opener, closer])
  have hletters : ∀ p ∈ passes, (p.1.all fun c => decide (¬ (c = '\n' ∨ c = ' '))) = true := by decide
  have hreplaced : ∀ p ∈ passes, (p.2.all fun c => decide (c = '\n' ∨ c = ' ')) = true := by decide
  exact ⟨htokens, fun p hp c hc => of_decide_eq_true (List.all_eq_true.mp (hletters p hp) c hc),
    fun p hp c hc => of_decide_eq_true (List.all_eq_true.mp (hreplaced p hp) c hc)⟩

/-- **The text is clean exactly when no token was torn**: it has none of the tokens and
stays as it is, unless the content has a token with deleted ones inside. -/
theorem withoutMarkup_clean_iff (content : String) :
    ((∀ p ∈ markup, ¬ p.1.toList <:+: (withoutMarkup content).toList) ∧
      withoutMarkup (withoutMarkup content) = withoutMarkup content) ↔ ¬ HasTornToken content := by
  have hnodup : (passes.map Prod.fst).Nodup := by decide
  rw [toList_withoutMarkup]
  constructor
  · rintro ⟨hclean, -⟩ ⟨pre, p, post, W, hpasses, htorn, hW⟩
    have hp : p ∈ passes := hpasses ▸ List.mem_append_right pre List.mem_cons_self
    obtain ⟨q, hq, rfl⟩ := List.mem_map.mp hp
    have htoken := infix_run_iff (s := content.toList) (hpasses ▸ passes_tokens) (hpasses ▸ hnodup)
    rw [← hpasses] at htoken
    exact hclean q hq (htoken.mpr ⟨W, htorn, hW⟩)
  · intro hno
    have hclean : ∀ p ∈ passes, ¬ p.1 <:+: run passes content.toList := by
      intro p hp hi
      obtain ⟨pre, post, hpasses⟩ := List.append_of_mem hp
      have htoken := infix_run_iff (s := content.toList) (hpasses ▸ passes_tokens) (hpasses ▸ hnodup)
      rw [← hpasses] at htoken
      obtain ⟨W, htorn, hW⟩ := htoken.mp hi
      exact hno ⟨pre, p, post, W, hpasses, htorn, hW⟩
    refine ⟨fun p hp => hclean _ (List.mem_map_of_mem hp), String.toList_injective ?_⟩
    rw [toList_withoutMarkup, toList_withoutMarkup, run_of_not_infix hclean]

/-- The pass over `<i>` makes the token of the first one. -/
theorem torn_token_left : withoutMarkup "<<i>p>" = "<p>" ∧
    ¬ ((∀ p ∈ markup, ¬ p.1.toList <:+: (withoutMarkup "<<i>p>").toList) ∧
      withoutMarkup (withoutMarkup "<<i>p>") = withoutMarkup "<<i>p>") := by
  have hleft : withoutMarkup "<<i>p>" = "<p>" := by decide
  refine ⟨hleft, fun h => ?_⟩
  rw [hleft] at h
  revert h
  decide

end APIUtil
end FootballGallery
