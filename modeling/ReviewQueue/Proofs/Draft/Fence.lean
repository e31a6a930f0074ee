import ReviewQueue.Draft.Reply
import ReviewQueue.Proofs.Text.Blank

/-!
# Drafts in a fence

A model may put its reply into a fence: three backquotes with some words behind them, the reply on
lines of its own, and three backquotes at the end. The first line and the last fence are cut off, so
that whatever stands in between comes out as it went in, backquotes and fences included.

* `Draft.beforeLastFence?_append` — the last fence of a text that ends with one is that at its end;
* `Draft.stripFence_fenced` — what is left of a text in a fence;
* `Draft.fence_transparent` — a fence makes no difference to what is read.
-/

namespace ReviewQueue.Draft

/-- A text in a fence, with words behind the first backquotes and something around it all. -/
def fenced (lead info text trail : String) : String :=
  lead ++ .ofList fence ++ info ++ "\n" ++ text ++ "\n" ++ .ofList fence ++ trail

theorem toList_fenced (lead info text trail : String) :
    (fenced lead info text trail).toList =
      lead.toList ++ (fence ++ info.toList ++ '\n' :: (text.toList ++ '\n' :: fence)) ++
        trail.toList := by
  simp [fenced]

/-- The last fence of a text that ends with one is that at its end. -/
theorem beforeLastFence?_append (s : List Char) : beforeLastFence? (s ++ fence) = some s := by
  induction s with
  | nil => decide
  | cons c s ih => rw [List.cons_append, beforeLastFence?, ih]

theorem afterFirstLine_append {line : List Char} (h : '\n' ∉ line) (rest : List Char) :
    afterFirstLine (line ++ '\n' :: rest) = rest := by
  have hline : ∀ c ∈ line, (c != '\n') = true := by
    intro c hc
    exact bne_iff_ne.mpr fun hcut => h (hcut ▸ hc)
  unfold afterFirstLine
  rw [List.dropWhile_append_of_pos hline, List.dropWhile_cons_of_neg (by decide)]

/-- A text that begins and ends with a fence has no blanks at its ends. -/
theorem trim_between_fences (s : List Char) :
    Text.trim (fence ++ s ++ fence) = fence ++ s ++ fence := by
  apply Text.trim_of_ends
  · intro c hc
    obtain rfl := Option.some.inj hc
    decide
  · intro c hc
    rw [List.getLast?_append] at hc
    obtain rfl := Option.some.inj hc
    decide

/-- What is left of a text in a fence is that text without the blanks at its ends. -/
theorem stripFence_fenced {lead info trail : String} (hlead : Text.isBlankText lead = true)
    (hinfo : '\n' ∉ info.toList) (htrail : Text.isBlankText trail = true) (text : String) :
    stripFence (fenced lead info text trail).toList = Text.trim text.toList := by
  have hinner : fence ++ info.toList ++ '\n' :: (text.toList ++ '\n' :: fence) =
      fence ++ (info.toList ++ '\n' :: (text.toList ++ ['\n'])) ++ fence := by
    simp
  have htrim : Text.trim (fenced lead info text trail).toList =
      fence ++ info.toList ++ '\n' :: (text.toList ++ '\n' :: fence) := by
    rw [toList_fenced, Text.trim_append_blank _ htrail, Text.trim_blank_append hlead, hinner,
      trim_between_fences]
  have hopens : fence.isPrefixOf
      (fence ++ info.toList ++ '\n' :: (text.toList ++ '\n' :: fence)) = true := by
    rw [List.append_assoc]
    exact List.isPrefixOf_iff_prefix.mpr (List.prefix_append _ _)
  have hline : '\n' ∉ fence ++ info.toList := by
    rw [List.mem_append, not_or]
    exact ⟨by decide, hinfo⟩
  -- the newline before the last fence belongs to the fence, and is trimmed off behind the text
  have hlast : text.toList ++ '\n' :: fence = (text.toList ++ ['\n']) ++ fence := by simp
  unfold stripFence
  simp only [htrim, hopens, if_true]
  rw [afterFirstLine_append hline, hlast, beforeLastFence?_append, Option.getD_some,
    Text.trim_append_blank _ (by decide)]

theorem stripFence_of_bare {s : List Char} (h : ¬ fence <+: Text.trim s) :
    stripFence s = Text.trim s := by
  unfold stripFence
  rw [if_neg (by rwa [List.isPrefixOf_iff_prefix])]

/-- **A fence makes no difference.** A reply that does not begin with a fence itself gives the same
draft, or fails with the same error, when it is put into one, with words behind the first backquotes
and blanks around it all. -/
theorem fence_transparent {lead info text trail : String} (hlead : Text.isBlankText lead = true)
    (hinfo : '\n' ∉ info.toList) (hbare : ¬ fence <+: Text.trim text.toList)
    (htrail : Text.isBlankText trail = true) :
    ofReply (fenced lead info text trail) = ofReply text := by
  unfold ofReply
  rw [stripFence_fenced hlead hinfo htrail, stripFence_of_bare hbare]

/-- A reply with a fence inside, which is put into another one. -/
theorem fence_transparent_around_fence :
    let text := " \x7b\"feedback\":\"use ``` here\",\n\"parts\":[\x7b\"index\":2\x7d]\x7d\n"
    Text.isBlankText "\t\n" = true ∧ '\n' ∉ "json ```".toList ∧
      ¬ fence <+: Text.trim text.toList ∧
      ofReply (fenced "\t\n" "json ```" text "\u00A0") =
        .ok { feedback := "use ``` here", parts := some [{ index := 2 }] } ∧
      ofReply (fenced "" "" "```x" "") ≠ ofReply "```x" := by
  intro text
  have hlead : Text.isBlankText "\t\n" = true := by decide +kernel
  have hinfo : '\n' ∉ "json ```".toList := by decide +kernel
  have hbare : ¬ fence <+: Text.trim text.toList := by decide +kernel
  have htrail : Text.isBlankText "\u00A0" = true := by decide +kernel
  refine ⟨hlead, hinfo, hbare, ?_, by decide +kernel⟩
  rw [fence_transparent hlead hinfo hbare htrail]
  decide +kernel

end ReviewQueue.Draft
