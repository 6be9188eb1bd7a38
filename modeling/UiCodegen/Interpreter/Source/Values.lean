import UiCodegen.Interpreter.Source.Template

/-!
# Reading values of any type

The part of the C interpreter that finds the reader of a type and reads a document value with it.
-/

namespace UiCodegen.Interpreter.Source

def values : List Bytes := lines r#"
static unmarshal_fn_t find_unmarshaler(const char *type)
<%
 const type_entry_t *e;
 if (!type) <%
  return NULL;
 %>
 for (e = g_type_table; e->type; e++) <%
  if (strcmp(e->type, type) == 0) <%
   return e->fn;
  %>
 %>
 if (strncmp(type, "const ", 6) == 0) <%
  return find_unmarshaler(type + 6);
 %>
 return NULL;
%>

/* with_text runs fn on a temporary string node holding the first n bytes of s. */
static bool with_text(const char *s, size_t n, unmarshal_fn_t fn, void *dest)
<%
 bool ok;
 cJSON *tmp;
 char *copy = (char *)malloc(n + 1);
 if (!copy) <%
  return false;
 %>
 memcpy(copy, s, n);
 copy[n] = '\0';
 tmp = cJSON_CreateString(copy);
 free(copy);
 if (!tmp) <%
  return false;
 %>
 ok = fn(tmp, dest);
 cJSON_Delete(tmp);
 return ok;
%>

static bool is_escaped_percent(const char *s, size_t n)
<%
 size_t i;
 if (n < 3 || s[n - 1] != '%' || s[n - 2] != '%') <%
  return false;
 %>
 for (i = (s[0] == '-') ? 1 : 0; i < n - 2; i++) <%
  if (s[i] < '0' || s[i] > '9') <%
   return false;
  %>
 %>
 return true;
%>

static bool is_pointer_type(const char *type)
<%
 size_t n = type ? strlen(type) : 0;
 return n > 0 && type[n - 1] == '*';
%>

/* unmarshal_value leaves dest untouched when it returns false. */
static bool unmarshal_value(cJSON *node, const char *expected_c_type, void *dest, void *implicit_parent)
<%
 unmarshal_fn_t fn;
 if (!node) <%
  return false;
 %>

 if (cJSON_IsObject(node)) <%
  cJSON *call = cJSON_GetObjectItemCaseSensitive(node, "call");
  if (cJSON_IsString(call)) <%
   const invoke_entry_t *e = find_invoke_entry(call->valuestring);
   if (!e) <%
    LVGL_JSON_LOG_ERR("lvgl_json: unknown function '%s' in call", call->valuestring);
    return false;
   %>
   if (!ret_matches(e->ret, expected_c_type)) <%
    LVGL_JSON_LOG_ERR("lvgl_json: %s returns %s, not %s", e->name, e->ret, expected_c_type ? expected_c_type : "?");
    return false;
   %>
   return e->invoke(implicit_parent, dest, cJSON_GetObjectItemCaseSensitive(node, "args"), e->fn);
  %>
 %>

 fn = find_unmarshaler(expected_c_type);

 if (cJSON_IsString(node) && node->valuestring && node->valuestring[0]) <%
  const char *s = node->valuestring;
  size_t n = strlen(s);
  char c = s[0];
  if ((c == '@' || c == '$' || c == '!') && n >= 2 && s[n - 1] == c) <%
   return fn && with_text(s, n - 1, fn, dest);
  %>
  if (is_escaped_percent(s, n)) <%
   return fn && with_text(s, n - 1, fn, dest);
  %>
  if (c == '$' && n > 1) <%
   ui_context_frame_t *saved = current_ui_context;
   ui_context_frame_t *scope = NULL;
   cJSON *v = context_lookup(s + 1, &scope);
   bool ok;
   if (!v) <%
    LVGL_JSON_LOG_ERR("lvgl_json: unbound context variable '%s'", s);
    return false;
   %>
   current_ui_context = scope;
   ok = unmarshal_value(v, expected_c_type, dest, implicit_parent);
   current_ui_context = saved;
   return ok;
  %>
  if (c == '@' && n > 1) <%
   registry_node_t *r = resolve_ref(s + 1, current_ui_path);
   if (!r) <%
    LVGL_JSON_LOG_ERR("lvgl_json: unknown reference '%s'", s);
    return false;
   %>
   if (!is_pointer_type(expected_c_type) || !type_matches(r->type, expected_c_type)) <%
    LVGL_JSON_LOG_ERR("lvgl_json: '%s' is a %s, not %s", s, r->type, expected_c_type ? expected_c_type : "?");
    return false;
   %>
   *(void **)dest = r->ptr;
   return true;
  %>
  if (c == '!' && n > 1) <%
   if (fn != unmarshal_string && fn != unmarshal_src) <%
    LVGL_JSON_LOG_ERR("lvgl_json: static string '%s' cannot be passed as %s", s, expected_c_type ? expected_c_type : "?");
    return false;
   %>
   *(const char **)dest = lvgl_json_register_str(s + 1);
   return true;
  %>
 %>

 if (!fn) <%
  LVGL_JSON_LOG_ERR("lvgl_json: no unmarshaler for type '%s'", expected_c_type ? expected_c_type : "?");
  return false;
 %>
 return fn(node, dest);
%>"#

end UiCodegen.Interpreter.Source
