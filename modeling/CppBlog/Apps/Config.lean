import CppBlog.Apps.Master

set_option autoImplicit false

/-! # First-time configuration and the captcha

`apps::config`, reachable without login, and `apps::captcha`. -/

namespace CppBlog

open Effect App

namespace Config

/-- The options `config::configure` deletes before it inserts them anew. -/
def replacedOptions : List String := ["blog_title", "blog_description", "is_configured", "contact"]

/-- The transaction of `config::configure`. -/
def store (f : ConfigForm) : App Unit :=
  transaction <|
    (execTotal (Db.deleteOptions replacedOptions)).bind fun _ =>
    (exec (Db.insertOption "is_configured" "yes")).bind fun _ =>
    (exec (Db.insertOption "blog_title" f.title.value)).bind fun _ =>
    (exec (Db.insertOption "blog_description" f.subtitle.value)).bind fun _ =>
    (exec (Db.insertOption "contact" f.contact.value)).bind fun _ =>
    (exec (Db.insertUser f.username.value f.p1.value)).bind fun _ =>
    commit

/-- `render("admin_skin","config",c)` -/
def render (e : Env) (form : ConfigForm) : App Unit :=
  (getOwn (fun o => (o.response.locale, (o.session.find "_csrf").getD ""))).bind fun x =>
  write (.config x.1 (escape e.settings.media) x.2 form)

/-- `config::configure` from the test of the method on. -/
def submit (e : Env) : App Unit :=
  if e.req.method = "POST" then
    (loadForm e (ConfigForm.load {})).bind fun form =>
    if form.validate.valid then
      (store form.validate).bind fun _ => setRedirectHeader (urlBlogSummary e)
    else render e form.validate
  else render e {}

/-- `config::configure`; the redirect of a configured blog does not leave the handler. -/
def configure (e : Env) : App Unit :=
  (query (fun d => d.option "is_configured")).bind fun r =>
  (if r = some "yes" then setRedirectHeader (urlBlogSummary e) else .ret ()).bind fun _ =>
  submit e

/-- `config::version` -/
def version (e : Env) : App Unit :=
  (query (fun d => d.option "dbversion")).bind fun r =>
  if r.getD "1" = cppblogDbversion then setRedirectHeader (urlBlogSummary e)
  else
    (getOwn (fun o => o.response.locale)).bind fun locale =>
    write (.configVersion locale (escape e.settings.media) (escape (r.getD "1"))
      (escape cppblogDbversion))

end Config

namespace Captcha

/-- `captcha::main` -/
def main (e : Env) : App Unit :=
  (sessionSet "captcha" e.chance.captchaLine).bind fun _ =>
  (setHeader "Content-Type" "image/png").bind fun _ =>
  write (.captcha e.chance.captchaLine)

end Captcha

end CppBlog
