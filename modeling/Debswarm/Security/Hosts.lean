import Debswarm.Security.Addresses

/-!
# Which hosts are allowed

A request with a URL and a `CONNECT` request to the same host pass checks that are written apart.
They decide alike, and they allow a host only if it is one of the listed domains or lies below
one.
-/

namespace Debswarm.Security

open Option Text

/-- A host is blocked by its address or by its name. -/
def Blocked (net : Network) (host : Str) : Prop :=
  let lower := toLower net.unicodeLower host
  (∃ ip, parseIPPermissive net lower = some ip ∧ isBlockedIP ip = true) ∨
    lower = ofAscii "localhost" ∨ ofAscii ".localhost" <:+ lower ∨ ofAscii "metadata." <+: lower

/-- A host is a domain or lies below it, without regard to case. -/
def Within (net : Network) (host domain : Str) : Prop :=
  toLower net.unicodeLower host = toLower net.unicodeLower domain ∨
    46 :: toLower net.unicodeLower domain <:+ toLower net.unicodeLower host

variable {net : Network} {host : Str}

theorem not_blocked (isHost : IsHost host) (passes : isBlockedHostOrIP net host = false) :
    ¬ Blocked net host := by
  have isLower := isHost_lower isHost
  have read := @parseIPPermissive_eq net _ (not_mem_of_isHost isLower (by decide))
    (parseBracketed_of_not_mem (not_mem_of_isHost isLower (by decide)))
  unfold isBlockedHostOrIP at passes
  unfold Blocked
  dsimp only at passes ⊢
  rw [toLower_of_isHost isHost] at passes ⊢
  rw [← isBlockedName_iff]
  cases parsed : parseIPPermissive net (host.map lowerByte) with
  | none => simpa [parsed] using passes
  | some ip =>
    rw [parsed] at passes read
    have notName : isBlockedName (host.map lowerByte) = false := by
      split at read
      · obtain ⟨address, isRead, -⟩ := map_eq_some_iff.mp read.symm
        exact not_isBlockedName_of_inetAton isRead
      · cases read
    simpa [notName] using passes

theorem exists_within {allowed : List Str}
    (isAllowed : isKnownMirrorOrAllowed net host allowed = true) :
    ∃ domain ∈ knownMirrorDomains ++ allowed, Within net host domain := by
  have lower : ∀ domain ∈ knownMirrorDomains, toLower net.unicodeLower domain = domain := by
    have ascii : ∀ domain ∈ knownMirrorDomains,
        domain.all (· < 128) = true ∧ domain.map lowerByte = domain := by decide
    intro domain mem
    rw [toLower, if_pos (ascii domain mem).1, (ascii domain mem).2]
  simp only [isKnownMirrorOrAllowed, isKnownDebianMirror, matchesHost, hasSuffix, Bool.or_eq_true,
    List.any_eq_true, beq_iff_eq, List.isSuffixOf_iff_suffix] at isAllowed
  rcases isAllowed with ⟨domain, isKnown, matches_⟩ | ⟨domain, isListed, matches_⟩
  · refine ⟨domain, List.mem_append_left _ isKnown, ?_⟩
    rwa [Within, lower domain isKnown]
  · exact ⟨domain, List.mem_append_right _ isListed, matches_⟩

/-- What a request with a URL comes down to. -/
theorem isAllowedMirrorURLWithHosts_of_hostname {url : Str} (isHost : IsHost host)
    (named : net.hostname url = some host) (allowed : List Str) :
    isAllowedMirrorURLWithHosts net url allowed =
      (isDebianRepoURL net url && !isBlockedHostOrIP net host &&
        isKnownMirrorOrAllowed net host allowed) := by
  have sameHosts : isAllowedHost net url allowed = isKnownMirrorOrAllowed net host allowed := by
    unfold isAllowedHost isKnownMirrorOrAllowed isKnownDebianMirror
    rw [extractHost_of_hostname isHost named, if_neg (isHost_lower isHost).1, toLower_lower isHost,
      toLower_of_isHost isHost]
    rfl
  unfold isAllowedMirrorURLWithHosts
  rw [isBlockedHost_of_hostname isHost named, sameHosts]
  cases isBlockedHostOrIP net host <;> cases isDebianRepoURL net url <;> rfl

/-- A URL is allowed only on a host that is not blocked and lies within a listed domain, and a
`CONNECT` request to it iff a URL with a repository path is. -/
theorem allowed_only_within_and_connect_agrees (net : Network) (host : Str) (isHost : IsHost host)
    (allowed : List Str) (scheme : Proxy.Scheme) (path : Str) (rooted : IsRooted path) :
    (isAllowedMirrorURLWithHosts net (urlOf scheme host path) allowed = true →
      ¬ Blocked net host ∧ ∃ domain ∈ knownMirrorDomains ++ allowed, Within net host domain) ∧
    (IsPath path → isDebianRepoURL net (urlOf scheme host path) = true →
      ∀ port ∈ [ofAscii "443", ofAscii "80"],
        isAllowedConnectTargetWithHosts net (host ++ 58 :: port) allowed =
          isAllowedMirrorURLWithHosts net (urlOf scheme host path) allowed) := by
  constructor
  · intro isAllowed
    rcases net.hostname_rooted scheme host path isHost rooted with named | malformed
    · rw [isAllowedMirrorURLWithHosts_of_hostname isHost named] at isAllowed
      simp only [Bool.and_eq_true, Bool.not_eq_true'] at isAllowed
      exact ⟨not_blocked isHost isAllowed.1.2, exists_within isAllowed.2⟩
    · simp [isAllowedMirrorURLWithHosts, isAllowedHost, extractHost, malformed] at isAllowed
  · intro isPath isRepo port isPort
    have ports : ∀ port ∈ [ofAscii "443", ofAscii "80"], port.all isHostByte = true ∧
        ¬ (port ≠ ofAscii "443" ∧ port ≠ ofAscii "80") := by decide
    rw [isAllowedMirrorURLWithHosts_of_hostname isHost (net.hostname_url _ _ _ isHost isPath)]
    unfold isAllowedConnectTargetWithHosts
    rw [net.splitHostPort_target host port isHost (ports port isPort).1, getD_some]
    dsimp only
    rw [if_neg (ports port isPort).2, isRepo]
    cases isBlockedHostOrIP net host <;> rfl

theorem connect_to_subdomain_agrees :
    ¬ Blocked plainNetwork (ofAscii "FTP.debian.org") ∧
      (∃ domain ∈ knownMirrorDomains ++ [], Within plainNetwork (ofAscii "FTP.debian.org") domain) ∧
      isAllowedConnectTargetWithHosts plainNetwork (ofAscii "FTP.debian.org:443") [] =
        isAllowedMirrorURLWithHosts plainNetwork (ofAscii "http://FTP.debian.org/debian/x") [] := by
  have isHost : IsHost (ofAscii "FTP.debian.org") := ⟨by decide, by decide⟩
  have noEscape : 37 ∉ ofAscii "/debian/x" := by decide
  have isPath : IsPath (ofAscii "/debian/x") :=
    ⟨.inr rfl, by decide +kernel, fun front rest parts => absurd (parts ▸ by simp) noEscape⟩
  have isRepo : isDebianRepoURL plainNetwork (ofAscii "http://FTP.debian.org/debian/x") = true := by
    decide +kernel
  have isAllowed : isAllowedMirrorURLWithHosts plainNetwork
      (ofAscii "http://FTP.debian.org/debian/x") [] = true := by
    decide +kernel
  obtain ⟨within, agrees⟩ :=
    allowed_only_within_and_connect_agrees plainNetwork _ isHost [] .http _ isPath.1
  exact ⟨(within isAllowed).1, (within isAllowed).2,
    agrees isPath isRepo (ofAscii "443") List.mem_cons_self⟩

end Debswarm.Security
