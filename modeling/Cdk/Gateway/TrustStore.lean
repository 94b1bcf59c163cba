import Cdk.Gateway.Trusted

/-!
# Paths of certificates

A trust store leads from the certificate of an endorsement key to a root.  At each step it
takes the first trusted certificate that fits, and never another one.
-/

namespace Cdk.Gateway

open ByteFormat Attestor

/-- What is read off certificates: whether the second one's key signed the first, and the
common name of the subject. -/
structure X509 where
  signedBy : Certificate → Certificate → Bool
  commonName : Certificate → String

namespace X509

variable (x509 : X509)

/-- A certificate that its own key signed. -/
def isRoot (cert : Certificate) : Bool := cert.subject == cert.issuer && x509.signedBy cert cert

/-- The second certificate is the issuer of the first: by name, and its key signed it. -/
def issues (current cert : Certificate) : Bool :=
  cert.isCa && cert.subject == current.issuer && x509.signedBy current cert

variable (certs : List Certificate)

/-- The loop of `verify`, with the rounds that are left. -/
def follow : Nat → List String → Certificate → Except String (List String)
  | 0, path, _ => .error ("certificate chain too long: " ++ " <- ".intercalate path)
  | rounds + 1, path, current =>
    match certs.find? (x509.issues current) with
    | none => .error ("no trusted CA signed '" ++ x509.commonName current ++
        "' (chain so far: " ++ " <- ".intercalate path ++ ")")
    | some issuer =>
      let path := path ++ [x509.commonName issuer]
      if x509.isRoot issuer then .ok path else follow rounds path issuer

/-- The common names of the path to a root, over at most four trusted certificates. -/
def verify : TrustStore := fun ek => x509.follow certs 4 [x509.commonName ek] ek

/-- At most so many trusted certificates lead to a root, each the issuer of the one before. -/
def Leads : Nat → Certificate → Prop
  | 0, _ => False
  | count + 1, current => ∃ issuer ∈ certs, x509.issues current issuer ∧
      (x509.isRoot issuer ∨ Leads count issuer)

/-- Whichever trusted certificate that fits is taken at each step, a root is reached after at
most so many. -/
def AlwaysLeads : Nat → Certificate → Prop
  | 0, _ => False
  | count + 1, current => (∃ issuer ∈ certs, x509.issues current issuer) ∧
      ∀ issuer ∈ certs, x509.issues current issuer →
        x509.isRoot issuer ∨ AlwaysLeads count issuer

/-- The common names of a path of at most so many certificates, up to its first root. -/
def Path : Nat → Certificate → List String → Prop
  | 0, _, _ => False
  | count + 1, current, names => ∃ issuer ∈ certs, x509.issues current issuer ∧
      ∃ rest, names = x509.commonName issuer :: rest ∧
        if x509.isRoot issuer then rest = [] else Path count issuer rest

variable {x509 certs} {other early late : List Certificate} {issuer : Certificate}

/-! ## What is found -/

theorem leads_of_follow (found : x509.follow certs rounds path current = .ok names) :
    x509.Leads certs rounds current := by
  induction rounds generalizing path current with
  | zero => cases found
  | succ rounds ih =>
    rw [follow] at found
    split at found
    · cases found
    rename_i issuer first
    refine ⟨issuer, List.mem_of_find?_eq_some first, List.find?_some first, ?_⟩
    split at found
    · exact .inl (by assumption)
    · exact .inr (ih found)

theorem Leads.perm (same : other.Perm certs) (leads : x509.Leads other count current) :
    x509.Leads certs count current := by
  induction count generalizing current with
  | zero => exact leads
  | succ count ih =>
    obtain ⟨issuer, trusted, issues, later⟩ := leads
    exact ⟨issuer, same.mem_iff.mp trusted, issues, later.imp_right ih⟩

/-- Where every walk leads to a root, a path is found in whatever order the certificates were
loaded. -/
theorem AlwaysLeads.follow_ok (leads : x509.AlwaysLeads certs rounds current)
    (same : other.Perm certs) (path : List String) :
    ∃ names, x509.follow other rounds path current = .ok (path ++ names) ∧
      x509.Path certs rounds current names := by
  induction rounds generalizing path current with
  | zero => exact leads.elim
  | succ rounds ih =>
    obtain ⟨⟨some, trusted, issues⟩, onward⟩ := leads
    obtain ⟨issuer, found⟩ := Option.isSome_iff_exists.mp
      (List.find?_isSome.mpr ⟨some, same.mem_iff.mpr trusted, issues⟩)
    have known := same.mem_iff.mp (List.mem_of_find?_eq_some found)
    have fits := List.find?_some found
    rw [follow, found]
    dsimp only
    by_cases root : x509.isRoot issuer
    · rw [if_pos root]
      exact ⟨_, rfl, issuer, known, fits, [], rfl, by rw [if_pos root]⟩
    · rw [if_neg root]
      obtain ⟨names, result, walked⟩ := ih ((onward issuer known fits).resolve_left root)
        (path ++ [x509.commonName issuer])
      refine ⟨x509.commonName issuer :: names, ?_, issuer, known, fits, names, rfl, ?_⟩
      · rw [result, List.append_assoc, List.singleton_append]
      · rwa [if_neg root]

/-! ## Loading a certificate first -/

theorem find_moved (unfit : x509.issues current issuer = false) :
    (issuer :: (early ++ late)).find? (x509.issues current) =
      (early ++ issuer :: late).find? (x509.issues current) := by
  simp [List.find?_append, unfit]

theorem not_issues_self (notRoot : ¬x509.isRoot issuer) : x509.issues issuer issuer = false := by
  cases fits : x509.issues issuer issuer with
  | false => rfl
  | true =>
    refine absurd ?_ notRoot
    simp only [issues, isRoot, Bool.and_eq_true] at fits ⊢
    exact ⟨fits.1.2, fits.2⟩

/-- Whether the loop ends in a root. -/
def reaches (x509 : X509) (certs : List Certificate) : Nat → Certificate → Bool
  | 0, _ => false
  | rounds + 1, current => (certs.find? (x509.issues current)).any fun issuer =>
      x509.isRoot issuer || reaches x509 certs rounds issuer

theorem reaches_of_follow (found : x509.follow certs rounds path current = .ok names) :
    x509.reaches certs rounds current := by
  induction rounds generalizing path current with
  | zero => cases found
  | succ rounds ih =>
    rw [follow] at found
    split at found
    · cases found
    rename_i issuer first
    rw [reaches, first, Option.any_some, Bool.or_eq_true]
    split at found
    · exact .inl (by assumption)
    · exact .inr (ih found)

theorem reaches_succ (reached : x509.reaches certs rounds current) :
    x509.reaches certs (rounds + 1) current := by
  induction rounds generalizing current with
  | zero => cases reached
  | succ rounds ih =>
    rw [reaches, Option.any_eq_true] at reached ⊢
    obtain ⟨issuer, found, onward⟩ := reached
    rw [Bool.or_eq_true] at onward
    exact ⟨issuer, found, (Bool.or_eq_true _ _).mpr (onward.imp_right ih)⟩

/-- A certificate that leads to no root does not help when it is loaded first. -/
theorem reaches_of_moved (notRoot : ¬x509.isRoot issuer)
    (missed : x509.reaches (early ++ issuer :: late) most issuer = false)
    (within : rounds ≤ most)
    (reached : x509.reaches (issuer :: (early ++ late)) rounds current) :
    x509.reaches (early ++ issuer :: late) rounds current := by
  induction rounds generalizing current with
  | zero => cases reached
  | succ rounds ih =>
    have enough := Nat.le_of_succ_le within
    rw [reaches, Option.any_eq_true] at reached ⊢
    obtain ⟨next, found, onward⟩ := reached
    rw [Bool.or_eq_true] at onward
    cases fits : x509.issues current issuer with
    | false =>
      rw [find_moved fits] at found
      exact ⟨next, found, (Bool.or_eq_true _ _).mpr (onward.imp_right (ih enough))⟩
    | true =>
      -- the walk is back at the certificate, with fewer rounds left
      rw [List.find?_cons_of_pos fits] at found
      obtain rfl := Option.some.inj found
      have again := ih enough (onward.resolve_left notRoot)
      have later : x509.reaches (early ++ issuer :: late) most issuer :=
        Nat.le_induction again (fun _ _ reached => reaches_succ reached) most enough
      cases missed.symm.trans later

theorem AlwaysLeads.succ (leads : x509.AlwaysLeads certs count current) :
    x509.AlwaysLeads certs (count + 1) current := by
  induction count generalizing current with
  | zero => exact leads.elim
  | succ count ih =>
    refine ⟨leads.1, ?_⟩
    intro issuer trusted issues
    exact (leads.2 issuer trusted issues).imp_right ih

/-- Where a walk may miss the roots, some order makes it miss them. -/
theorem exists_missing (certs : List Certificate)
    (misses : ¬x509.AlwaysLeads certs rounds current) :
    ∃ other : List Certificate, other.Perm certs ∧
      x509.reaches other rounds current = false := by
  induction rounds generalizing current with
  | zero => exact ⟨certs, .refl _, rfl⟩
  | succ rounds ih =>
    by_cases some : ∃ issuer ∈ certs, x509.issues current issuer
    · obtain ⟨issuer, onward⟩ := not_forall.mp fun onward => misses ⟨some, onward⟩
      simp only [Classical.not_imp, not_or] at onward
      obtain ⟨trusted, issues, notRoot, stuck⟩ := onward
      obtain ⟨other, same, missed⟩ := ih stuck
      obtain ⟨early, late, rfl⟩ := List.append_of_mem (same.mem_iff.mpr trusted)
      refine ⟨issuer :: (early ++ late), List.perm_middle.symm.trans same, ?_⟩
      rw [reaches, List.find?_cons_of_pos issues, Option.any_some, Bool.or_eq_false_iff]
      refine ⟨Bool.eq_false_iff.mpr notRoot, Bool.eq_false_iff.mpr fun reached => ?_⟩
      cases missed.symm.trans (reaches_of_moved notRoot missed le_rfl reached)
    · refine ⟨certs, .refl _, ?_⟩
      have none : certs.find? (x509.issues current) = none :=
        List.find?_eq_none.mpr fun issuer trusted issues => some ⟨issuer, trusted, issues⟩
      rw [reaches, none, Option.any_none]

theorem AlwaysLeads.exists_rank (leads : x509.AlwaysLeads certs count current) :
    ∃ rank, x509.AlwaysLeads certs (rank + 1) current ∧ ¬x509.AlwaysLeads certs rank current := by
  induction count with
  | zero => exact leads.elim
  | succ count ih =>
    by_cases fewer : x509.AlwaysLeads certs count current
    · exact ih fewer
    · exact ⟨count, leads, fewer⟩

/-- A certificate that the walk does not come back to can be loaded first: behind it every
certificate is nearer to the roots. -/
theorem follow_moved (notRoot : ¬x509.isRoot issuer) (far : ¬x509.AlwaysLeads certs rank issuer)
    (same : (early ++ issuer :: late).Perm certs)
    (unfit : x509.issues current issuer = false)
    (onward : ∀ next ∈ certs, x509.issues current next →
      x509.isRoot next ∨ x509.AlwaysLeads certs rank next)
    (rounds : Nat) (path : List String) :
    x509.follow (issuer :: (early ++ late)) rounds path current =
      x509.follow (early ++ issuer :: late) rounds path current := by
  induction rounds generalizing path current with
  | zero => rfl
  | succ rounds ih =>
    rw [follow, follow, find_moved unfit]
    cases found : (early ++ issuer :: late).find? (x509.issues current) with
    | none => rfl
    | some next =>
      dsimp only
      by_cases root : x509.isRoot next
      · rw [if_pos root, if_pos root]
      rw [if_neg root, if_neg root]
      have leads := (onward next (same.mem_iff.mp (List.mem_of_find?_eq_some found))
        (List.find?_some found)).resolve_left root
      cases rank with
      | zero => exact leads.elim
      | succ rank =>
        refine ih ?_ (fun later trusted issues => (leads.2 later trusted issues).imp_right .succ) _
        by_contra fits
        have trusted : issuer ∈ certs := same.mem_iff.mp (by simp)
        have back := leads.2 issuer trusted (Bool.eq_true_of_not_eq_false fits)
        exact far (back.resolve_left notRoot).succ

/-- Every path is the one that is found in some order. -/
theorem Path.exists_order (walked : x509.Path certs rounds current names)
    (leads : x509.AlwaysLeads certs rounds current) :
    ∃ other : List Certificate, other.Perm certs ∧
      ∀ path, x509.follow other rounds path current = .ok (path ++ names) := by
  induction rounds generalizing current names with
  | zero => exact leads.elim
  | succ rounds ih =>
    obtain ⟨issuer, trusted, issues, rest, rfl, ends⟩ := walked
    by_cases root : x509.isRoot issuer
    · rw [if_pos root] at ends
      obtain ⟨early, late, rfl⟩ := List.append_of_mem trusted
      refine ⟨issuer :: (early ++ late), List.perm_middle.symm, fun path => ?_⟩
      rw [follow, List.find?_cons_of_pos issues]
      dsimp only
      rw [if_pos root, ends]
    · rw [if_neg root] at ends
      have onward := (leads.2 issuer trusted issues).resolve_left root
      obtain ⟨other, same, found⟩ := ih ends onward
      obtain ⟨early, late, rfl⟩ := List.append_of_mem (same.mem_iff.mpr trusted)
      obtain ⟨rank, near, far⟩ := onward.exists_rank
      refine ⟨issuer :: (early ++ late), List.perm_middle.symm.trans same, fun path => ?_⟩
      rw [follow, List.find?_cons_of_pos issues]
      dsimp only
      rw [if_neg root, follow_moved root far same (not_issues_self root) near.2, found,
        List.append_assoc, List.singleton_append]

/-- A path that is found is one.  Paths are found exactly if they exist, and the same one in
whatever order the certificates were loaded, if and only if, where there is a path at all, every
walk from the certificate leads to a root over the same names. -/
theorem verify_finds_paths_iff
    (x509 : X509)
    (certs : List Certificate)
    (ek : Certificate) :
    ((∃ names, x509.verify certs ek = .ok names) → x509.Leads certs 4 ek) ∧
      ((∀ other : List Certificate, other.Perm certs →
          ((∃ names, x509.verify other ek = .ok names) ↔ x509.Leads certs 4 ek) ∧
            (x509.verify other ek).toOption = (x509.verify certs ek).toOption) ↔
        (x509.Leads certs 4 ek →
          x509.AlwaysLeads certs 4 ek ∧
            ∀ left right, x509.Path certs 4 ek left → x509.Path certs 4 ek right →
              left = right)) := by
  refine ⟨fun ⟨_, found⟩ => leads_of_follow found, fun finds leads => ?_, fun good other same => ?_⟩
  · have always : x509.AlwaysLeads certs 4 ek := by
      by_contra misses
      obtain ⟨other, same, missed⟩ := exists_missing certs misses
      obtain ⟨names, found⟩ := (finds other same).1.mpr leads
      cases missed.symm.trans (reaches_of_follow found)
    refine ⟨always, fun left right walkedLeft walkedRight => ?_⟩
    obtain ⟨first, sameFirst, foundLeft⟩ := walkedLeft.exists_order always
    obtain ⟨second, sameSecond, foundRight⟩ := walkedRight.exists_order always
    have agree := (finds first sameFirst).2.trans (finds second sameSecond).2.symm
    rw [verify, verify, foundLeft, foundRight] at agree
    exact List.append_cancel_left (Option.some.inj agree)
  · by_cases leads : x509.Leads certs 4 ek
    · obtain ⟨always, agree⟩ := good leads
      obtain ⟨names, found, walked⟩ := always.follow_ok same [x509.commonName ek]
      obtain ⟨others, alsoFound, alsoWalked⟩ := always.follow_ok (.refl _) [x509.commonName ek]
      refine ⟨iff_of_true ⟨_, found⟩ leads, ?_⟩
      rw [verify, verify, found, alsoFound, agree names others walked alsoWalked]
    · have none {loaded : List Certificate} (same : loaded.Perm certs) :
          ¬∃ names, x509.verify loaded ek = .ok names :=
        fun ⟨_, found⟩ => leads ((leads_of_follow found).perm same)
      refine ⟨iff_of_false (none same) leads, ?_⟩
      cases left : x509.verify other ek with
      | ok names => exact absurd ⟨names, left⟩ (none same)
      | error _ =>
        cases right : x509.verify certs ek with
        | ok names => exact absurd ⟨names, right⟩ (none (.refl _))
        | error _ => rfl

/-- A trusted certificate with the given names. -/
def sampleCa (subject issuer : String) : Certificate :=
  { sampleCert with subject := ascii subject, issuer := ascii issuer, isCa := true }

/-- Of two certificates of one intermediate the first has an issuer that is not trusted: the
path over the second is found only if it was loaded first. -/
theorem renewed_issuer_missed :
    let x509 : X509 := ⟨fun cert issuer => cert.issuer == issuer.subject, fun _ => ""⟩
    let trusted := [sampleCa "ca" "root", sampleCa "ca" "old", sampleCa "root" "root"]
    (x509.verify trusted (sampleCa "ek" "ca")).isOk ∧
      (x509.verify [sampleCa "ca" "old", sampleCa "ca" "root", sampleCa "root" "root"]
        (sampleCa "ek" "ca")).isOk = false := by
  decide +kernel

end X509

end Cdk.Gateway
