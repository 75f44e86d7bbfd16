import PackageRisk.Proofs.Registry.Names

/-!
# Requests for different names

An inquiry sends one request, to an address that is made of a name. Where the addresses say the
names, different names lead to different addresses; the names for which they do not are those with
escapes or with characters that mean something else in an address.
-/

namespace PackageRisk

open Percent

/-- What is looked up under a name. -/
inductive Inquiry where
  | release
  | publisher
  | downloads
  deriving DecidableEq

namespace Inquiry

variable {service : RegistryService} {inquiry : Inquiry} {name other : String} {url url' : Url}

/-- The address of the service that is asked. -/
def root (service : RegistryService) : Inquiry → String
  | release | publisher => service.registryUrl
  | downloads => service.downloadsUrl

/-- What stands before the name in an address. -/
def path : Inquiry → String
  | release => ""
  | publisher => "-/user/org.couchdb.user:"
  | downloads => "downloads/point/last-month/"

/-- What stands before the name in the last segment. -/
def lead : Inquiry → String
  | release | downloads => ""
  | publisher => "org.couchdb.user:"

/-- The address for a name. -/
def address (service : RegistryService) (inquiry : Inquiry) (name : String) : String :=
  withoutTrailingSlashes (inquiry.root service) ++ "/" ++ (inquiry.path ++ encodeName name)

/-- What an inquiry finds. -/
inductive Found where
  | release (r : Release)
  | publisher (p : Option Publisher)
  | downloads (n : Nat)

/-- Look something up, a release in a requested version. -/
def fetch (service : RegistryService) (network : Network) (name requested : String) :
    Inquiry → Except Failure Found
  | release => (service.fetchRelease network name requested).map .release
  | publisher => (service.fetchPublisher network name).map .publisher
  | downloads => (service.fetchDownloads network name).map .downloads

theorem address_release (service : RegistryService) (name : String) :
    release.address service name = service.address (encodeName name) := by
  simp [address, RegistryService.address, path, root]

theorem address_publisher (service : RegistryService) (name : String) :
    publisher.address service name =
      service.address ("-/user/org.couchdb.user:" ++ encodeName name) :=
  rfl

theorem address_downloads (service : RegistryService) (name : String) :
    downloads.address service name =
      withoutTrailingSlashes service.downloadsUrl ++ "/downloads/point/last-month/" ++
        encodeName name := by
  have slash : "/downloads/point/last-month/" = "/" ++ "downloads/point/last-month/" := rfl
  simp only [address, path, root, slash, String.append_assoc]

/-- An inquiry depends on a network by one exchange. -/
theorem fetch_congr {network network' : Network}
    (same : exchange network (inquiry.address service name) none =
      exchange network' (inquiry.address service name) none) (requested : String) :
    inquiry.fetch service network name requested =
      inquiry.fetch service network' name requested := by
  cases inquiry with
  | release =>
    rw [address_release] at same
    simp only [fetch, RegistryService.fetchRelease, same]
  | publisher =>
    rw [address_publisher] at same
    simp only [fetch, RegistryService.fetchPublisher, same]
  | downloads =>
    rw [address_downloads] at same
    simp only [fetch, RegistryService.fetchDownloads, same]

/-- An inquiry fails when its exchange does. -/
theorem fetch_of_fault {network : Network} {fault : ExchangeFault}
    (failed : exchange network (inquiry.address service name) none = .error fault)
    (requested : String) :
    ∃ context, inquiry.fetch service network name requested = .error (fault.detailed context) := by
  cases inquiry with
  | release =>
    rw [address_release] at failed
    exact ⟨_, by rw [fetch, RegistryService.fetchRelease, failed]; rfl⟩
  | publisher =>
    rw [address_publisher] at failed
    exact ⟨_, by rw [fetch, RegistryService.fetchPublisher, failed]; rfl⟩
  | downloads =>
    rw [address_downloads] at failed
    exact ⟨_, by rw [fetch, RegistryService.fetchDownloads, failed]; rfl⟩

/-- An inquiry sends a request for an address and nothing else: what it finds depends on the answer
to this one request, and without an answer it fails and says so of the address. -/
structure Asks (service : RegistryService) (inquiry : Inquiry) (name : String) (url : Url) :
    Prop where
  address : Url.parse (inquiry.address service name) = .ok url
  only : ∀ network network' : Network, network ⟨url, none⟩ = network' ⟨url, none⟩ →
    ∀ requested, inquiry.fetch service network name requested =
      inquiry.fetch service network' name requested
  needed : ∀ (network : Network) fault, network ⟨url, none⟩ = .error fault →
    ∀ requested, ∃ context, inquiry.fetch service network name requested =
      .error ((ExchangeFault.ofTransport url fault).detailed context)

theorem asks_of_parse (parsed : Url.parse (inquiry.address service name) = .ok url) :
    inquiry.Asks service name url where
  address := parsed
  only network network' same requested := by
    apply fetch_congr
    rw [exchange, exchange, parsed]
    simp only [same]
  needed network fault unanswered requested := by
    apply fetch_of_fault
    rw [exchange, parsed]
    simp only [unanswered]

theorem leads (inquiry : Inquiry) : Leads inquiry.path.toList inquiry.lead.toList := by
  cases inquiry with
  | release => exact .nil
  | publisher =>
    exact @Leads.of_directory "-/user".toList "org.couchdb.user:".toList
      (List.all_iff_forall_prop.mp (by decide)) (List.all_iff_forall_prop.mp (by decide))
  | downloads =>
    exact @Leads.of_directory "downloads/point/last-month".toList []
      (List.all_iff_forall_prop.mp (by decide)) (List.forall_mem_nil _)

/-- The service has an address below which names can be put. -/
def Usable (service : RegistryService) (inquiry : Inquiry) : Prop :=
  ∃ root, Url.parse (withoutTrailingSlashes (inquiry.root service) ++ "/") = .ok root ∧
    root.query = none ∧ root.fragment = none

/-- A name that an address says: it is legible and does not look like a directory there. -/
def Legible (inquiry : Inquiry) (name : String) : Prop :=
  PackageRisk.Legible name.toList ∧ inquiry.lead ++ name ≠ "." ∧ inquiry.lead ++ name ≠ ".."

/-- The address that an inquiry asks says the name exactly if the name is legible for it. -/
theorem exists_asks_iff (usable : inquiry.Usable service) (name : String) :
    ∃ url, inquiry.Asks service name url ∧
      (url.Names (inquiry.lead ++ name).toList ↔ inquiry.Legible name) := by
  obtain ⟨root, parsed, query, fragment⟩ := usable
  have below : inquiry.address service name = String.ofList
      ((withoutTrailingSlashes (inquiry.root service)).toList ++
        '/' :: (inquiry.path.toList ++ name.toList.flatMap writeName)) := by
    apply String.toList_inj.mp
    simp [address, toList_encodeName]
  have base : withoutTrailingSlashes (inquiry.root service) ++ "/" = String.ofList
      ((withoutTrailingSlashes (inquiry.root service)).toList ++ ['/']) := by
    apply String.toList_inj.mp
    simp
  obtain ⟨url, asked, shows⟩ :=
    Url.IsRoot.exists_shows ⟨base ▸ parsed, query, fragment⟩ inquiry.leads name.toList
  rw [← below] at asked
  have text (dots : String) : inquiry.lead ++ name ≠ dots ↔
      inquiry.lead.toList ++ name.toList ≠ dots.toList := by
    rw [← String.toList_append]
    exact (not_congr String.toList_inj).symm
  refine ⟨url, asks_of_parse asked, ?_⟩
  rw [String.toList_append, Legible, text, text]
  exact ⟨shows.legible inquiry.leads, fun ⟨legible, here, parent⟩ =>
    shows.names inquiry.leads legible here parent⟩

/-- Different names that their addresses say are looked up at different places. -/
theorem path_ne_of_names (names : url.Names (inquiry.lead ++ name).toList)
    (names' : url'.Names (inquiry.lead ++ other).toList) (different : name ≠ other) :
    url.path ≠ url'.path := by
  intro same
  have segment : url.lastSegment = url'.lastSegment := by
    rw [Url.lastSegment, Url.lastSegment, same]
  have read := names.2.2.symm.trans ((congrArg decode segment).trans names'.2.2)
  exact different ((String.append_right_inj _).mp (String.toList_inj.mp (bytes_injective read)))

/-- The segment for a name never has a slash, and a question mark or a number sign only where the
name has one; it decodes to the name exactly if the name has no escape. The one request of an
inquiry is sent to an address that says the name exactly if the name is legible for the inquiry, and
so the requests for different legible names go to different places. -/
theorem names_apart (service : RegistryService) (inquiry : Inquiry)
    (usable : inquiry.Usable service) :
    (∀ name, '/' ∉ (encodeName name).toList ∧
      ('?' ∈ (encodeName name).toList ↔ '?' ∈ name.toList) ∧
      ('#' ∈ (encodeName name).toList ↔ '#' ∈ name.toList) ∧
      (decode (encodeName name).toList = bytes name.toList ↔ ¬ HasEscape name.toList)) ∧
    (∀ name, ∃ url, inquiry.Asks service name url ∧
      (url.Names (inquiry.lead ++ name).toList ↔ inquiry.Legible name)) ∧
    ∀ name other, inquiry.Legible name → inquiry.Legible other → name ≠ other →
      ∃ url url', inquiry.Asks service name url ∧ inquiry.Asks service other url' ∧
        url.path ≠ url'.path := by
  refine ⟨fun name => ?_, exists_asks_iff usable, fun name other legible legible' different => ?_⟩
  · rw [decode_encodeName, toList_encodeName]
    exact ⟨slash_not_mem_flatMap_writeName _, mem_flatMap_writeName_iff (by decide),
      mem_flatMap_writeName_iff (by decide), decode_eq_bytes_iff⟩
  · obtain ⟨url, asks, names⟩ := exists_asks_iff usable name
    obtain ⟨url', asks', names'⟩ := exists_asks_iff usable other
    exact ⟨url, url', asks, asks',
      path_ne_of_names (names.mpr legible) (names'.mpr legible') different⟩

/-- A package and a scoped one are asked for at different addresses. -/
theorem lodash_apart_from_scoped : release.Usable {} ∧ ∃ url url',
    release.Asks {} "lodash" url ∧ release.Asks {} "@types/lodash" url' ∧ url.path ≠ url'.path := by
  have usable : release.Usable {} :=
    ⟨⟨"https", "registry.npmjs.org", "/", none, none⟩, by decide +kernel, rfl, rfl⟩
  have unscoped : release.Legible "lodash" :=
    ⟨⟨not_hasEscape_of_not_mem (by decide), by decide, by decide,
      fun c last => by cases last; decide⟩, by decide, by decide⟩
  have within : release.Legible "@types/lodash" :=
    ⟨⟨not_hasEscape_of_not_mem (by decide), by decide, by decide,
      fun c last => by cases last; decide⟩, by decide, by decide⟩
  exact ⟨usable, (names_apart {} release usable).2.2 _ _ unscoped within (by decide)⟩

/-- A name with an escape is asked for at the address of the name that it decodes to. -/
theorem escaped_asks_for_scoped : decode (encodeName "a%2fb").toList ≠ bytes "a%2fb".toList ∧
    '?' ∈ (encodeName "a?b").toList ∧
    ∀ inquiry, address {} inquiry "a%2fb" = address {} inquiry "a/b" := by
  refine ⟨by decide +kernel, by decide +kernel, fun inquiry => ?_⟩
  cases inquiry <;> decide +kernel

end Inquiry

end PackageRisk
