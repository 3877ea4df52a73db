/-
This file shows that one unit in front of a line continuation is read alike with it and without it.
-/

import TinySandbox.Proof.Shell.Scans

namespace TinySandbox.Shell

variable {post input other : Text}

/-- This is the text with the continuation behind it. -/
def continued (post text : Text) : Text := text ++ (continuation ++ post)

@[simp] theorem continued_cons (symbol : Char) (text : Text) :
    continued post (symbol :: text) = symbol :: continued post text := rfl

@[simp] theorem continued_append (first second : Text) :
    continued post (first ++ second) = first ++ continued post second :=
  List.append_assoc _ _ _

/-- The values are equal, and what is left differs in the continuation. -/
def Parted {α : Type} (post : Text) (rest : Option Text) (left right : α × Text) : Prop :=
  ∃ value text, rest = some text ∧ left = (value, continued post text) ∧
    right = (value, text ++ post)

theorem Parted.pure {α : Type} {value : α} {text : Text} :
    Agrees (Parted post (some text)) (Pure.pure (value, continued post text))
      (Pure.pure (value, text ++ post)) :=
  .returns _ _ ⟨value, text, rfl, rfl, rfl⟩

/-- The continuation itself starts with a symbol that most units end at. -/
theorem NextIs.continued {allowed : Char → Prop} {rest : Text} (next : NextIs post allowed rest)
    (backslash : allowed '\\') (symbol : Char)
    (found : (continued post rest).head? = some symbol) : allowed symbol := by
  cases rest with
  | nil =>
      cases found
      exact backslash
  | cons first rest => exact next symbol found

section Redirects

theorem scanTargetFd_none {operator next : Text} {op : RedirectOp} (word : next.head? ≠ some '&') :
    scanTargetFd input operator op next = pure (none, next) := by
  unfold scanTargetFd
  split
  · exact absurd rfl word
  · rfl

theorem scanTargetFd_fd {operator digits rest : Text} {symbol : Char} (some' : digits ≠ [])
    (numeric : ∀ digit ∈ digits, digit.isDigit = true) (ends : symbol.isDigit = false) :
    scanTargetFd input operator .write ('&' :: (digits ++ symbol :: rest)) =
      if isWordBreak symbol = true then
        parseFd input (digits ++ symbol :: rest) digits >>= fun fd => pure (some fd, symbol :: rest)
      else Scan.fail (position input operator) .ambiguousRedirect := by
  obtain ⟨taken, dropped⟩ := digits_cut rest numeric ends
  unfold scanTargetFd
  change (if RedirectOp.write ≠ RedirectOp.write then _
    else if (digits ++ symbol :: rest).takeWhile Char.isDigit = [] then _
    else if ((digits ++ symbol :: rest).dropWhile Char.isDigit).head?.any _ = true then _
    else _) = _
  rw [if_neg (not_not_intro rfl), taken, dropped, if_neg some']
  cases joined : isWordBreak symbol with
  | true => simp [joined]
  | false => simp [joined]

theorem parseFd_fits {rest digits : Text} (fits : decimal digits < 2 ^ 32) :
    parseFd input rest digits = pure (decimal digits) := if_pos fits

theorem parseFd_large {rest digits : Text} (large : ¬ decimal digits < 2 ^ 32) :
    parseFd input rest digits = Scan.fail (position input rest) .invalidFileDescriptor :=
  if_neg large

theorem wordBreak_not_digit {symbol : Char} (ends : isWordBreak symbol = true) :
    symbol.isDigit = false := by
  unfold isWordBreak at ends
  simp only [decide_eq_true_eq, List.mem_cons, List.not_mem_nil, or_false] at ends
  rcases ends with rfl | rfl | rfl | rfl | rfl | rfl | rfl | rfl
  all_goals decide

theorem redirectBehind_plain {operator next : Text} {op : RedirectOp}
    (scanned : scanRedirectOp input operator = pure (some (op, next)))
    (word : next.head? ≠ some '&') (fd : Option Nat) :
    redirectBehind input operator fd = pure (some ({ fd, op, targetFd := none }, next)) := by
  unfold redirectBehind
  rw [scanned, pure_bind]
  change scanTargetFd input operator op next >>= _ = _
  rw [scanTargetFd_none word, pure_bind]

theorem redirectBehind_fd {digits rest : Text} {symbol : Char} (some' : digits ≠ [])
    (numeric : ∀ digit ∈ digits, digit.isDigit = true) (ends : symbol.isDigit = false)
    (fd : Option Nat) :
    redirectBehind input ('>' :: '&' :: (digits ++ symbol :: rest)) fd =
      if isWordBreak symbol = true then
        parseFd input (digits ++ symbol :: rest) digits >>= fun target =>
          pure (some ({ fd, op := .write, targetFd := some target }, symbol :: rest))
      else
        Scan.fail (position input ('>' :: '&' :: (digits ++ symbol :: rest))) .ambiguousRedirect := by
  unfold redirectBehind
  rw [scanRedirectOp_write (by simp), pure_bind]
  change scanTargetFd input _ .write _ >>= _ = _
  rw [scanTargetFd_fd some' numeric ends]
  split
  · rw [bind_assoc]
    rfl
  · rfl

theorem redirectBehind_noFd {rest : Text} {symbol : Char} (numeric : symbol.isDigit = false)
    (fd : Option Nat) :
    redirectBehind input ('>' :: '&' :: symbol :: rest) fd =
      Scan.fail (position input ('>' :: '&' :: symbol :: rest)) (.unsupported .redirectFdDup) := by
  have none : (symbol :: rest).takeWhile Char.isDigit = [] :=
    List.takeWhile_cons_of_neg (by rw [numeric]; decide)
  have refused (operator : Text) : scanTargetFd input operator .write ('&' :: symbol :: rest) =
      Scan.fail (position input operator) (.unsupported .redirectFdDup) := by
    unfold scanTargetFd
    exact (if_neg (not_not_intro rfl)).trans (if_pos none)
  unfold redirectBehind
  rw [scanRedirectOp_write (by simp), pure_bind]
  change scanTargetFd input _ .write _ >>= _ = _
  rw [refused]
  rfl

/-- A redirect is the same with the continuation behind it. -/
def SameRedirect (post : Text) (rest : Option Text) (left right : Option (RedirectToken × Text)) :
    Prop :=
  ∃ token text, rest = some text ∧ left = some (token, continued post text) ∧
    right = some (token, text ++ post)

/-- The operator is the same when no symbol that may follow makes it longer. -/
theorem plain_agrees {operator rest : Text} {op : RedirectOp} (fd : Option Nat)
    (left : scanRedirectOp input (continued post operator) =
      pure (some (op, continued post rest)))
    (right : scanRedirectOp other (operator ++ post) = pure (some (op, rest ++ post)))
    (next : NextIs post (· ≠ '&') rest) :
    Agrees (SameRedirect post (some rest)) (redirectBehind input (continued post operator) fd)
      (redirectBehind other (operator ++ post) fd) := by
  rw [redirectBehind_plain left fun found => next.continued (by decide) _ found rfl,
    redirectBehind_plain right fun found => next _ found rfl]
  exact .returns _ _ ⟨_, rest, rfl, rfl, rfl⟩

theorem redirection_agrees {text : Text} {rest : Option Text} (reads : Redirection post text rest)
    (fd : Option Nat) :
    Agrees (SameRedirect post rest) (redirectBehind input (continued post text) fd)
      (redirectBehind other (text ++ post) fd) := by
  cases reads with
  | read rest next =>
      apply plain_agrees fd
      · exact scanRedirectOp_read fun found => (next.continued (by decide) _ found).1 rfl
      · exact scanRedirectOp_read fun found => (next _ found).1 rfl
      · exact fun symbol found => (next symbol found).2
  | heredoc rest => exact .fails _ _ _
  | readFd rest => exact .fails _ _ _
  | write rest next =>
      apply plain_agrees fd
      · exact scanRedirectOp_write fun found => (next.continued (by decide) _ found).1 rfl
      · exact scanRedirectOp_write fun found => (next _ found).1 rfl
      · exact fun symbol found => (next symbol found).2
  | append rest next => exact plain_agrees fd rfl rfl next
  | appendFd rest => exact .fails _ _ _
  | noFd symbol rest numeric =>
      rw [continued_cons, continued_cons, continued_cons, List.cons_append, List.cons_append,
        List.cons_append, redirectBehind_noFd numeric, redirectBehind_noFd numeric]
      exact .fails _ _ _
  | fd digits symbol rest some' numeric ends fits =>
      rw [continued_cons, continued_cons, continued_append, continued_cons, List.cons_append,
        List.cons_append, List.append_assoc, List.cons_append,
        redirectBehind_fd some' numeric (wordBreak_not_digit ends),
        redirectBehind_fd some' numeric (wordBreak_not_digit ends), if_pos ends, if_pos ends,
        parseFd_fits fits, parseFd_fits fits]
      exact .returns _ _ ⟨_, symbol :: rest, rfl, rfl, rfl⟩
  | largeFd digits symbol rest some' numeric ends large =>
      rw [continued_cons, continued_cons, continued_append, continued_cons, List.cons_append,
        List.cons_append, List.append_assoc, List.cons_append,
        redirectBehind_fd some' numeric (wordBreak_not_digit ends),
        redirectBehind_fd some' numeric (wordBreak_not_digit ends), if_pos ends, if_pos ends,
        parseFd_large large, parseFd_large large]
      exact .fails _ _ _
  | ambiguous digits symbol rest some' numeric other joined =>
      have word : ¬ isWordBreak symbol = true := by rw [joined]; decide
      rw [continued_cons, continued_cons, continued_append, continued_cons, List.cons_append,
        List.cons_append, List.append_assoc, List.cons_append,
        redirectBehind_fd some' numeric other, redirectBehind_fd some' numeric other, if_neg word,
        if_neg word]
      exact .fails _ _ _

end Redirects

section Operators

theorem scanKind_operator {symbol : Char} (next : Text) (operates : symbol ∈ ['\n', ';', '|', '&']) :
    scanKind input (symbol :: next) = scanToken input (symbol :: next) := by
  have none : scanRedirect input (symbol :: next) = pure none := by
    simp only [List.mem_cons, List.not_mem_nil, or_false] at operates
    rcases operates with rfl | rfl | rfl | rfl
    all_goals rfl
  unfold scanKind
  rw [none, pure_bind]

theorem operator_agrees {text : Text} {rest : Option Text} (reads : Operator post text rest) :
    Agrees (Parted post rest) (scanKind input (continued post text))
      (scanKind other (text ++ post)) := by
  cases reads with
  | newline rest => exact Parted.pure
  | semi rest => exact Parted.pure
  | orIf rest => exact Parted.pure
  | pipe rest next =>
      rw [continued_cons, List.cons_append, scanKind_operator _ (by decide),
        scanKind_operator _ (by decide),
        scanToken_pipe fun found => next.continued (by decide) _ found rfl,
        scanToken_pipe fun found => next _ found rfl]
      exact Parted.pure
  | andIf rest => exact Parted.pure
  | background rest next =>
      rw [continued_cons, List.cons_append, scanKind_operator _ (by decide),
        scanKind_operator _ (by decide),
        scanToken_background fun found => next.continued (by decide) _ found rfl,
        scanToken_background fun found => next _ found rfl]
      exact .fails _ _ _

theorem Redirection.starts {text : Text} {rest : Option Text} (reads : Redirection post text rest) :
    ∃ symbol behind, text = symbol :: behind ∧ (symbol = '<' ∨ symbol = '>') := by
  cases reads
  all_goals first | exact ⟨_, _, rfl, .inl rfl⟩ | exact ⟨_, _, rfl, .inr rfl⟩

theorem not_numbered {symbol : Char} (other : symbol.isDigit = false) (rest : Text) :
    ¬ Numbered (symbol :: rest) := by
  rintro ⟨digits, next, behind, same, some', numeric, -⟩
  cases digits with
  | nil => exact some' rfl
  | cons digit digits =>
      obtain ⟨rfl, -⟩ := List.cons.inj same
      have impossible := numeric symbol List.mem_cons_self
      rw [other] at impossible
      cases impossible

theorem redirect_agrees {digits text : Text} {rest : Option Text}
    (numeric : ∀ digit ∈ digits, digit.isDigit = true) (fits : decimal digits < 2 ^ 32)
    (reads : Redirection post text rest) :
    Agrees (Parted post rest) (scanKind input (continued post (digits ++ text)))
      (scanKind other (digits ++ text ++ post)) := by
  unfold scanKind
  have scanned : Agrees (SameRedirect post rest)
      (scanRedirect input (continued post (digits ++ text)))
      (scanRedirect other (digits ++ text ++ post)) := by
    obtain ⟨symbol, behind, rfl, redirects⟩ := reads.starts
    by_cases some' : digits = []
    · subst some'
      have free := not_numbered (redirects_not_digit redirects)
      rw [List.nil_append, continued_cons, List.cons_append, scanRedirect_unnumbered (free _),
        scanRedirect_unnumbered (free _)]
      exact redirection_agrees reads none
    · rw [continued_append, continued_cons, List.append_assoc, List.cons_append,
        scanRedirect_numbered _ some' numeric redirects,
        scanRedirect_numbered _ some' numeric redirects, parseFd_fits fits, parseFd_fits fits,
        pure_bind, pure_bind]
      exact redirection_agrees reads (some (decimal digits))
  apply Agrees.bind scanned
  intro left right same
  obtain ⟨token, text, rfl, rfl, rfl⟩ := same
  exact Parted.pure

theorem largeFd_agrees {related : Option TokenKind × Text → Option TokenKind × Text → Prop}
    {digits left right : Text} {symbol : Char} (numeric : ∀ digit ∈ digits, digit.isDigit = true)
    (large : ¬ decimal digits < 2 ^ 32) (redirects : symbol = '<' ∨ symbol = '>') :
    Agrees related (scanKind input (digits ++ symbol :: left))
      (scanKind other (digits ++ symbol :: right)) := by
  have some' : digits ≠ [] := by
    rintro rfl
    exact large (by decide)
  unfold scanKind
  rw [scanRedirect_numbered left some' numeric redirects,
    scanRedirect_numbered right some' numeric redirects, parseFd_large large, parseFd_large large]
  exact .fails _ _ _

end Operators

section Expansions

theorem plainBehindDollar_backslash (quoted : Bool) : PlainBehindDollar quoted '\\' := by
  refine ⟨?_, by decide, by decide, by decide⟩
  unfold RefusedBehindDollar
  simp
  decide

/-- A digit or a special parameter has only one rule behind a dollar sign. -/
theorem parameter_facts {symbol : Char}
    (parameter : symbol.isDigit = true ∨ isRejectedSpecialParameter symbol = true) :
    symbol ≠ '{' ∧ symbol ≠ '?' ∧ isNameStart symbol = false := by
  rcases parameter with digit | special
  · unfold isNameStart Char.isAlpha Char.isUpper Char.isLower
    unfold Char.isDigit at digit
    simp only [Bool.and_eq_true, decide_eq_true_eq] at digit
    refine ⟨?_, ?_, ?_⟩
    · rintro rfl
      exact absurd digit (by decide)
    · rintro rfl
      exact absurd digit (by decide)
    · simp only [Bool.or_eq_false_iff, Bool.and_eq_false_iff, decide_eq_false_iff_not]
      refine ⟨⟨?_, ?_⟩, ?_⟩
      · intro upper
        exact absurd (UInt32.le_trans upper.1 digit.2) (by decide)
      · left
        intro lower
        exact absurd (UInt32.le_trans lower digit.2) (by decide)
      · rintro rfl
        exact absurd digit (by decide)
  · unfold isRejectedSpecialParameter at special
    simp only [decide_eq_true_eq, List.mem_cons, List.not_mem_nil, or_false] at special
    rcases special with rfl | rfl | rfl | rfl | rfl | rfl
    all_goals decide

theorem refused_agrees {related : Literals × Text → Literals × Text → Prop} {quoted : Bool}
    {symbol : Char} (refuses : RefusedBehindDollar quoted symbol) (before : Literals) (left right : Text) :
    Agrees related (scanExpansion input ('$' :: symbol :: left) quoted before)
      (scanExpansion other ('$' :: symbol :: right) quoted before) := by
  unfold scanExpansion
  rw [List.tail_cons, List.tail_cons]
  dsimp only
  apply Agrees.refuse
  intro command
  apply Agrees.refuse
  intro ansi
  apply Agrees.refuse
  intro locale
  have parameter : symbol.isDigit = true ∨ isRejectedSpecialParameter symbol = true := by
    unfold RefusedBehindDollar at refuses
    cases quoted
    all_goals simp_all
  obtain ⟨braces, status, starts⟩ := parameter_facts parameter
  have word : ¬ isNameStart symbol = true := by rw [starts]; decide
  rw [← Bool.or_eq_true] at parameter
  rw [if_neg braces, if_neg braces, if_neg status, if_neg status, if_neg word, if_neg word,
    if_pos parameter, if_pos parameter]
  exact .fails _ _ _

theorem scanExpansion_accepted {quoted : Bool} {symbol : Char} {rest : Text}
    (accepted : ¬ RefusedBehindDollar quoted symbol) (before : Literals) :
    scanExpansion input ('$' :: symbol :: rest) quoted before =
      if symbol = '{' then scanBracedExpansion input ('$' :: symbol :: rest) quoted before
      else if symbol = '?' then pure (before.expand questionMark quoted, rest)
      else if isNameStart symbol then
        if symbol :: rest.takeWhile isNameContinue = ['_'] then
          Scan.fail (position input ('$' :: symbol :: rest)) (.unsupported .parameterExpansion)
        else pure (before.expand (symbol :: rest.takeWhile isNameContinue) quoted,
          rest.dropWhile isNameContinue)
      else pure ({ before with literal := before.literal ++ ['$'] }, symbol :: rest) := by
  unfold RefusedBehindDollar at accepted
  simp only [not_or, not_and] at accepted
  obtain ⟨command, digit, special, quotes⟩ := accepted
  have parameter : ¬ (symbol.isDigit || isRejectedSpecialParameter symbol) = true := by
    rw [Bool.or_eq_true]
    exact not_or.mpr ⟨digit, special⟩
  unfold scanExpansion
  rw [List.tail_cons]
  dsimp only
  rw [if_neg command, if_neg _, if_neg _, if_neg parameter]
  · intro locale
    exact (quotes (Bool.not_eq_true _ ▸ locale.2)).2 locale.1
  · intro ansi
    exact (quotes (Bool.not_eq_true _ ▸ ansi.2)).1 ansi.1

theorem scanExpansion_literal {rest : Text} {quoted : Bool} (before : Literals)
    (plain : ∀ symbol, rest.head? = some symbol → PlainBehindDollar quoted symbol) :
    scanExpansion input ('$' :: rest) quoted before =
      pure ({ before with literal := before.literal ++ ['$'] }, rest) := by
  cases rest with
  | nil => rfl
  | cons next behind =>
      obtain ⟨accepted, starts, braces, status⟩ := plain next rfl
      rw [scanExpansion_accepted accepted, if_neg braces, if_neg status,
        if_neg (by rw [starts]; decide)]

theorem scanBraced_named {first symbol : Char} {name rest : Text} {quoted : Bool} (before : Literals)
    (starts : isNameStart first = true) (continues : ∀ symbol ∈ name, isNameContinue symbol = true)
    (ends : isNameContinue symbol = false) :
    scanBracedExpansion input ('$' :: '{' :: first :: (name ++ symbol :: rest)) quoted before =
      if symbol = '}' then
        if first :: name = ['_'] then
          Scan.fail (position input ('$' :: '{' :: first :: (name ++ symbol :: rest)))
            (.unsupported .parameterExpansion)
        else pure (before.expand (first :: name) quoted, rest)
      else
        Scan.fail (position input ('$' :: '{' :: first :: (name ++ symbol :: rest)))
          .invalidParameterExpansion := by
  have status : first ≠ '?' := by
    rintro rfl
    exact absurd starts (by decide)
  have parameter : ¬ (first.isDigit || isRejectedSpecialParameter first) = true := by
    intro parameter
    rw [(parameter_facts (Bool.or_eq_true _ _ ▸ parameter)).2.2] at starts
    cases starts
  obtain ⟨taken, dropped⟩ : (name ++ symbol :: rest).takeWhile isNameContinue = name ∧
      (name ++ symbol :: rest).dropWhile isNameContinue = symbol :: rest := by
    apply while_stops continues
    intro next found
    cases found
    exact ends
  unfold scanBracedExpansion
  dsimp only [List.drop]
  rw [if_neg status, if_neg parameter, if_neg (by rw [starts]; decide), taken, dropped]
  by_cases closes : symbol = '}'
  · subst closes
    rw [if_pos rfl]
    rfl
  · rw [if_neg closes]
    split
    · rename_i same
      exact absurd (List.cons.inj same).1 closes
    · rename_i empty
      cases empty
    · rfl

theorem noName_agrees {related : Literals × Text → Literals × Text → Prop} {quoted : Bool}
    {symbol : Char} (other' : symbol ≠ '?') (ends : isNameStart symbol = false) (before : Literals)
    (left right : Text) :
    Agrees related (scanBracedExpansion input ('$' :: '{' :: symbol :: left) quoted before)
      (scanBracedExpansion other ('$' :: '{' :: symbol :: right) quoted before) := by
  have word : (! isNameStart symbol) = true := by rw [ends]; rfl
  unfold scanBracedExpansion
  dsimp only [List.drop]
  rw [if_neg other', if_neg other']
  apply Agrees.refuse
  intro accepted
  rw [if_pos word, if_pos word]
  exact .fails _ _ _

theorem scanExpansion_braces {quoted : Bool} {rest : Text} (before : Literals) :
    scanExpansion input ('$' :: '{' :: rest) quoted before =
      scanBracedExpansion input ('$' :: '{' :: rest) quoted before := by
  have accepted : ¬ RefusedBehindDollar quoted '{' := by
    unfold RefusedBehindDollar
    simp
    decide
  rw [scanExpansion_accepted accepted, if_pos rfl]

theorem scanExpansion_named {first : Char} {name rest : Text} {quoted : Bool} (before : Literals)
    (starts : isNameStart first = true) (continues : ∀ symbol ∈ name, isNameContinue symbol = true)
    (stops : ∀ symbol, rest.head? = some symbol → isNameContinue symbol = false) :
    scanExpansion input ('$' :: first :: (name ++ rest)) quoted before =
      if first :: name = ['_'] then
        Scan.fail (position input ('$' :: first :: (name ++ rest))) (.unsupported .parameterExpansion)
      else pure (before.expand (first :: name) quoted, rest) := by
  have symbols : first ≠ '(' ∧ first ≠ '\'' ∧ first ≠ '"' ∧ first ≠ '{' ∧ first ≠ '?' := by
    refine ⟨?_, ?_, ?_, ?_, ?_⟩
    all_goals
      rintro rfl
      exact absurd starts (by decide)
  obtain ⟨command, ansi, locale, braces, status⟩ := symbols
  have accepted : ¬ RefusedBehindDollar quoted first := by
    rintro (same | digit | special | quotes)
    · exact command same
    · rw [(parameter_facts (.inl digit)).2.2] at starts
      cases starts
    · rw [(parameter_facts (.inr special)).2.2] at starts
      cases starts
    · exact quotes.2.elim ansi locale
  obtain ⟨taken, dropped⟩ := while_stops continues stops
  rw [scanExpansion_accepted accepted, if_neg braces, if_neg status, if_pos starts, taken, dropped]

theorem scanExpansion_status {rest : Text} {quoted : Bool} (before : Literals) :
    scanExpansion input ('$' :: '?' :: rest) quoted before =
      pure (before.expand questionMark quoted, rest) := by
  have accepted : ¬ RefusedBehindDollar quoted '?' := by
    unfold RefusedBehindDollar
    simp
    decide
  rw [scanExpansion_accepted accepted, if_neg (by decide), if_pos rfl]

theorem scanBraced_openStatus {symbol : Char} {rest : Text} {quoted : Bool} (before : Literals)
    (opens : symbol ≠ '}') :
    scanBracedExpansion input ('$' :: '{' :: '?' :: symbol :: rest) quoted before =
      Scan.fail (position input ('$' :: '{' :: '?' :: symbol :: rest))
        .invalidParameterExpansion := by
  unfold scanBracedExpansion
  dsimp only [List.drop]
  rw [if_pos rfl]
  split
  · rename_i same
    exact absurd (List.cons.inj same).1 opens
  · rfl

theorem expansion_agrees {quoted : Bool} {text : Text} {rest : Option Text}
    (reads : Expansion post quoted text rest) (before : Literals) :
    Agrees (Parted post rest) (scanExpansion input ('$' :: continued post text) quoted before)
      (scanExpansion other ('$' :: (text ++ post)) quoted before) := by
  cases reads with
  | literal rest next =>
      rw [scanExpansion_literal before next,
        scanExpansion_literal before (next.continued (plainBehindDollar_backslash quoted))]
      exact Parted.pure
  | status rest =>
      rw [continued_cons, List.cons_append, scanExpansion_status, scanExpansion_status]
      exact Parted.pure
  | named name rest valid next =>
      obtain ⟨first, name, rfl, starts, continues, several⟩ := valid
      rw [continued_append, List.cons_append, List.append_assoc, List.cons_append,
        scanExpansion_named before starts continues (next.continued (by decide)),
        scanExpansion_named before starts continues next, if_neg several, if_neg several]
      exact Parted.pure
  | underscore rest next =>
      have refuse {input rest : Text}
          (stops : ∀ symbol, rest.head? = some symbol → isNameContinue symbol = false) :
          scanExpansion input ('$' :: '_' :: rest) quoted before =
            Scan.fail (position input ('$' :: '_' :: rest)) (.unsupported .parameterExpansion) :=
        (scanExpansion_named before (by decide) (List.forall_mem_nil _) stops).trans (if_pos rfl)
      rw [continued_cons, List.cons_append, refuse (next.continued (by decide)), refuse next]
      exact .fails _ _ _
  | refused symbol rest refuses => exact refused_agrees refuses before _ _
  | bracedStatus rest =>
      rw [continued_cons, List.cons_append, scanExpansion_braces, scanExpansion_braces]
      exact Parted.pure
  | openStatus symbol rest other =>
      rw [continued_cons, continued_cons, continued_cons, List.cons_append, List.cons_append,
        List.cons_append, scanExpansion_braces, scanExpansion_braces, scanBraced_openStatus before other,
        scanBraced_openStatus before other]
      exact .fails _ _ _
  | braced name rest valid =>
      obtain ⟨first, name, rfl, starts, continues, several⟩ := valid
      simp only [continued_cons, continued_append, List.cons_append, List.append_assoc]
      rw [scanExpansion_braces, scanExpansion_braces, scanBraced_named before starts continues (by decide),
        scanBraced_named before starts continues (by decide), if_pos rfl, if_pos rfl, if_neg several,
        if_neg several]
      exact Parted.pure
  | bracedUnderscore rest =>
      have refuse {input rest : Text} :
          scanBracedExpansion input ('$' :: '{' :: '_' :: '}' :: rest) quoted before =
            Scan.fail (position input ('$' :: '{' :: '_' :: '}' :: rest))
              (.unsupported .parameterExpansion) :=
        (scanBraced_named before (by decide) (List.forall_mem_nil _) (by decide)).trans
          ((if_pos rfl).trans (if_pos rfl))
      simp only [continued_cons, List.cons_append]
      rw [scanExpansion_braces, scanExpansion_braces, refuse, refuse]
      exact .fails _ _ _
  | openBraces first name symbol rest starts continues ends other =>
      rw [continued_cons, continued_cons, continued_append, continued_cons, List.cons_append,
        List.cons_append, List.append_assoc, List.cons_append, scanExpansion_braces,
        scanExpansion_braces, scanBraced_named before starts continues ends,
        scanBraced_named before starts continues ends, if_neg other, if_neg other]
      exact .fails _ _ _
  | noName symbol rest other ends =>
      rw [continued_cons, continued_cons, List.cons_append, List.cons_append, scanExpansion_braces,
        scanExpansion_braces]
      exact noName_agrees other ends before _ _

end Expansions

end TinySandbox.Shell
